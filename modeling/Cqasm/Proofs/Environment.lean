import Cqasm.Proofs.Overload
import Cqasm.Scope.Stack

/-! Nested scopes as a plain environment that only remembers, for every open scope, what was added to it and in
which order. Looking a name up in the scopes gives what this environment says, after any sequence of opening and
closing scopes and adding to them. -/
namespace Cqasm

namespace Scope

inductive Addition where
  | value (name : String) (v : Value)
  | instruction (i : Instruction)
  | native (name : String) (params : List Ty) (f : Native)
  | function (f : RuntimeFunction)
  | modifier (m : GateModifier)
  | blockVariable (id : Nat)
  | statement (st : Graph.Statement)

namespace Addition

def isGlobal : Addition → Bool
  | .native _ _ _ | .function _ | .modifier _ => true
  | .value _ _ | .instruction _ | .blockVariable _ | .statement _ => false

def binding? : Addition → Option (String × Value)
  | .value name v => some (name, v)
  | .instruction _ | .native _ _ _ | .function _ | .modifier _ | .blockVariable _ | .statement _ => none

def instruction? : Addition → Option Instruction
  | .instruction i => some i
  | .value _ _ | .native _ _ _ | .function _ | .modifier _ | .blockVariable _ | .statement _ => none

theorem globalBindings (as : List Addition) : (as.filter isGlobal).filterMap binding? = [] := by
  induction as with
  | nil => rfl
  | cons a as ih => cases a <;> exact ih

theorem globalInstructions (as : List Addition) : (as.filter isGlobal).filterMap instruction? = [] := by
  induction as with
  | nil => rfl
  | cons a as ih => cases a <;> exact ih

end Addition

def extend (s : Scope) : Addition → Scope
  | .value name v => s.addVariable name v
  | .instruction i => s.addInstruction i
  | .native name params f => s.addNative name params f
  | .function f => s.addFunction f
  | .modifier m => s.addModifier m
  | .blockVariable id => s.addBlockVariable id
  | .statement st => s.addStatement st

def extendAll (s : Scope) (as : List Addition) : Scope := as.foldl extend s

theorem extendAllConcat (s : Scope) (as : List Addition) (a : Addition) :
    s.extendAll (as ++ [a]) = (s.extendAll as).extend a := List.foldl_concat ..

theorem extendAllVars (s : Scope) (as : List Addition) :
    (s.extendAll as).vars = (as.filterMap Addition.binding?).foldl (fun t b => t.add b.1 b.2) s.vars := by
  induction as generalizing s with
  | nil => rfl
  | cons a as ih => cases a <;> exact ih _

theorem extendAllInstructions (s : Scope) (as : List Addition) :
    (s.extendAll as).instructions =
      s.instructions.addAll Instruction.name id Instruction.operands (as.filterMap Addition.instruction?) := by
  induction as generalizing s with
  | nil => rfl
  | cons a as ih => cases a <;> exact ih _

structure SameLanguage (s t : Scope) : Prop where
  natives : s.natives = t.natives
  functions : s.functions = t.functions
  modifiers : s.modifiers = t.modifiers

theorem SameLanguage.extendAll {s t : Scope} (same : SameLanguage s t) (as : List Addition) :
    SameLanguage (s.extendAll as) (t.extendAll (as.filter Addition.isGlobal)) := by
  induction as generalizing s t with
  | nil => exact same
  | cons a as ih =>
    obtain ⟨natives, functions, modifiers⟩ := same
    cases a with
    | value | instruction | blockVariable | statement => exact ih ⟨natives, functions, modifiers⟩
    | native name params f => exact ih ⟨congrArg (·.add name f params) natives, functions, modifiers⟩
    | function f => exact ih ⟨natives, congrArg (·.add f.name f f.params) functions, modifiers⟩
    | modifier m => exact ih ⟨natives, functions, congrArg (·.add m.name m m.params) modifiers⟩

theorem SameLanguage.resolveFunction {s t : Scope} (same : SameLanguage s t) (name : String) (args : List Value) :
    s.resolveFunction name args = t.resolveFunction name args := by
  simp only [Scope.resolveFunction, evaluate, call, same.natives, same.functions]

end Scope

open Scope (Addition)

inductive ScopeOperation where
  | push
  | pop
  | add (a : Addition)

namespace ScopeOperation

def addition? : ScopeOperation → Option Addition
  | .add a => some a
  | .push | .pop => none

def additions (ops : List ScopeOperation) : List Addition := ops.filterMap addition?

structure Unmatched where
  pops : Nat
  pushes : Nat
  deriving DecidableEq

def Unmatched.afterPush : Unmatched → Unmatched
  | ⟨0, pushes⟩ => ⟨0, pushes + 1⟩
  | ⟨pops + 1, pushes⟩ => ⟨pops, pushes⟩

def unmatched : List ScopeOperation → Unmatched
  | [] => ⟨0, 0⟩
  | .push :: rest => (unmatched rest).afterPush
  | .pop :: rest => ⟨(unmatched rest).pops + 1, (unmatched rest).pushes⟩
  | .add _ :: rest => unmatched rest

def Balanced (ops : List ScopeOperation) : Prop := unmatched ops = ⟨0, 0⟩

end ScopeOperation

open ScopeOperation (additions unmatched Unmatched Balanced)

namespace ScopeStack

def add (s : ScopeStack) : Addition → ScopeStack
  | .value name v => s.addVariable name v
  | .instruction i => s.addInstruction i
  | .native name params f => s.addNative name params f
  | .function f => s.addFunction f
  | .modifier m => s.addModifier m
  | .blockVariable id => s.addBlockVariable id
  | .statement st => s.addStatement st

theorem addEq (s : ScopeStack) (a : Addition) :
    s.add a = if a.isGlobal then s.modifyGlobal (·.extend a) else s.modifyCurrent (·.extend a) := by
  cases a <;> rfl

def apply (s : ScopeStack) : ScopeOperation → ScopeStack
  | .push => s.push
  | .pop =>
    match s.pop? with
    | some (_, rest) => rest
    | none => s
  | .add a => s.add a

def run (s : ScopeStack) (ops : List ScopeOperation) : ScopeStack := ops.foldl apply s

end ScopeStack

theorem VariableTable.findAll (t : VariableTable) (bs : List (String × Value)) (name : String) :
    (bs.foldl (fun t b => t.add b.1 b.2) t).find? name =
      ((bs.reverse.find? fun b => t.policy.key b.1 = t.policy.key name).map Prod.snd).or (t.find? name) := by
  induction bs generalizing t with
  | nil => rfl
  | cons b bs ih =>
    have step := ih (t.add b.1 b.2)
    rw [List.foldl_cons, step, List.reverse_cons, List.find?_append, Option.map_or, Option.or_assoc]
    congr 1
    by_cases same : t.policy.key b.1 = t.policy.key name
    · simp [find?, add, Table.findInsert, same]
    · simp [find?, add, Table.findInsert, same, Ne.symm same]

namespace OverloadTable

theorem resolveToOption {α : Type} (t : OverloadTable α) (name : String) (args : List Value) :
    (t.resolve name args).toOption = Overload.firstMatch? (t.overloads name) args := by
  cases found : t.find? name with
  | none => simp [resolve, overloads, found, Overload.firstMatch?, Except.toOption]
  | some entry =>
    cases first : Overload.firstMatch? entry.overloads args <;> simp [resolve, overloads, found, first, Except.toOption]

def instructionIn (t : OverloadTable Instruction) (name : String) (args : List Value) :
    Except Fault (Instruction × List Value) :=
  match t.resolve name args with
  | .ok found => .ok found
  | .error fault => .error (.noInstruction (fault.kind ≠ .nameResolution) name (args.map Value.type))

theorem instructionInEq (t : OverloadTable Instruction) (name : String) (args : List Value) :
    t.instructionIn name args = (Overload.firstMatch? (t.overloads name) args).elim
      (.error (.noInstruction (t.contains name) name (args.map Value.type))) .ok := by
  cases found : t.find? name with
  | none =>
    have unknown : t.contains name = false := by
      rw [contains, Table.contains, show t.names.find? _ = none from found]
      rfl
    simp [instructionIn, resolve, overloads, found, Overload.firstMatch?, unknown, Fault.kind]
  | some entry =>
    have known : t.contains name = true := by
      rw [contains, Table.contains, show t.names.find? _ = some entry from found]
      rfl
    cases first : Overload.firstMatch? entry.overloads args <;>
      simp [instructionIn, resolve, overloads, found, first, known, Fault.kind]

end OverloadTable

theorem Overload.firstMatchFlatMap {α β : Type} (xs : List β) (f : β → List (Overload α)) (args : List Value) :
    firstMatch? (xs.flatMap f) args = xs.findSome? fun x => firstMatch? (f x) args := by
  induction xs with
  | nil => rfl
  | cons x xs ih =>
    have first : firstMatch? (f x ++ xs.flatMap f) args =
        (firstMatch? (f x) args).or (firstMatch? (xs.flatMap f) args) := List.findSome?_append
    rw [List.flatMap_cons, List.findSome?_cons, first, ih]
    cases firstMatch? (f x) args <;> rfl

theorem ScopeStack.resolveInstructionEq (s : ScopeStack) (name : String) (args : List Value) :
    s.resolveInstruction name args =
      (Overload.firstMatch? (s.scopes.flatMap fun scope => scope.instructions.overloads name) args).elim
        (.error (.noInstruction (s.scopes.any fun scope => scope.instructions.contains name) name
          (args.map Value.type))) .ok := by
  rw [Overload.firstMatchFlatMap, resolveInstruction]
  simp only [OverloadTable.resolveToOption]
  split
  case h_1 found first => rw [first]; rfl
  case h_2 none => rw [none]; rfl

structure Environment where
  nested : List (List Addition)
  global : List Addition

namespace Environment

def frames (e : Environment) : List (List Addition) := e.nested ++ [e.global]

def add (e : Environment) (a : Addition) : Environment :=
  match a.isGlobal, e.nested with
  | false, frame :: outer => { e with nested := (frame ++ [a]) :: outer }
  | _, _ => { e with global := e.global ++ [a] }

theorem depthAdd (e : Environment) (a : Addition) : (e.add a).nested.length = e.nested.length := by
  obtain ⟨nested, global⟩ := e
  cases here : a.isGlobal <;> cases nested <;> simp [add, here]

def apply (e : Environment) : ScopeOperation → Environment
  | .push => { e with nested := [] :: e.nested }
  | .pop => { e with nested := e.nested.tail }
  | .add a => e.add a

def run (e : Environment) (ops : List ScopeOperation) : Environment := ops.foldl apply e

def lastValue? (policy : CasePolicy) (name : String) (frame : List Addition) : Option Value :=
  ((frame.filterMap Addition.binding?).reverse.find? fun b => policy.key b.1 = policy.key name).map Prod.snd

def value? (e : Environment) (policy : CasePolicy) (name : String) : Option Value :=
  e.frames.findSome? (lastValue? policy name)

def instructions (e : Environment) : List Instruction := e.frames.flatMap (·.filterMap Addition.instruction?)

def table (e : Environment) (policy : CasePolicy) : OverloadTable Instruction :=
  (OverloadTable.empty policy).addAll Instruction.name id Instruction.operands e.instructions

def stack (e : Environment) (policy : CasePolicy) : ScopeStack :=
  ⟨policy, e.nested.map (Scope.empty policy).extendAll, (Scope.empty policy).extendAll e.global⟩

theorem stackApply (e : Environment) (policy : CasePolicy) (op : ScopeOperation) :
    (e.stack policy).apply op = (e.apply op).stack policy := by
  obtain ⟨nested, global⟩ := e
  cases op with
  | push => rfl
  | pop => cases nested <;> rfl
  | add a =>
    simp only [ScopeStack.apply, apply, ScopeStack.addEq]
    cases global : a.isGlobal <;> cases nested <;>
      simp [add, global, stack, Scope.extendAllConcat, ScopeStack.modifyCurrent, ScopeStack.modifyGlobal]

theorem stackRun (e : Environment) (policy : CasePolicy) (ops : List ScopeOperation) :
    (e.stack policy).run ops = (e.run ops).stack policy := by
  induction ops generalizing e with
  | nil => rfl
  | cons op ops ih =>
    change ((e.stack policy).apply op).run ops = ((e.apply op).run ops).stack policy
    rw [stackApply, ih]

theorem depthRun (e : Environment) (ops : List ScopeOperation) :
    (e.run ops).nested.length = e.nested.length - (unmatched ops).pops + (unmatched ops).pushes := by
  induction ops generalizing e with
  | nil => rfl
  | cons op ops ih =>
    have rest := ih (e.apply op)
    change ((e.apply op).run ops).nested.length = _
    cases op with
    | push =>
      cases counts : unmatched ops with
      | mk pops pushes =>
        rw [rest, unmatched, counts]
        cases pops with
        | zero => simp only [apply, Unmatched.afterPush, List.length_cons]; omega
        | succ pops => simp only [apply, Unmatched.afterPush, List.length_cons]; omega
    | pop =>
      rw [rest, unmatched]
      simp only [apply, List.length_tail]
      omega
    | add a => rw [rest, unmatched, apply, depthAdd]

example : unmatched [.push, .pop, .pop, .push, .push, .pop] = ⟨1, 1⟩ := rfl

section Lookup

variable (e : Environment) (policy : CasePolicy) (name : String)

theorem stackScopes : (e.stack policy).scopes = e.frames.map (Scope.empty policy).extendAll := by
  simp [ScopeStack.scopes, stack, frames]

theorem frameValue (frame : List Addition) :
    ((Scope.empty policy).extendAll frame).vars.find? name = lastValue? policy name frame := by
  rw [Scope.extendAllVars, VariableTable.findAll]
  exact Option.or_none

theorem stackVariable : (e.stack policy).resolveVariable name =
    (e.value? policy name).elim (.error (.unknownVariable name)) .ok := by
  have same : ((e.stack policy).scopes.findSome? fun scope => scope.vars.find? name) = e.value? policy name := by
    rw [stackScopes, List.findSome?_map, value?]
    congr 1
    funext frame
    exact frameValue policy name frame
  rw [ScopeStack.resolveVariable, same]
  cases e.value? policy name <;> rfl

theorem tableOverloads : (e.table policy).overloads name =
    (e.stack policy).scopes.flatMap fun scope => scope.instructions.overloads name := by
  simp only [stackScopes, List.flatMap_map, Scope.extendAllInstructions, table, instructions,
    OverloadTable.overloadsAddAll, List.filter_flatMap, List.map_flatMap]
  rfl

theorem tableContains : (e.table policy).contains name =
    (e.stack policy).scopes.any fun scope => scope.instructions.contains name := by
  simp only [stackScopes, List.any_map, Function.comp_def, Scope.extendAllInstructions, table, instructions,
    OverloadTable.containsAddAll, List.any_flatMap]
  rfl

theorem stackInstruction (args : List Value) :
    (e.stack policy).resolveInstruction name args = (e.table policy).instructionIn name args := by
  rw [OverloadTable.instructionInEq, ScopeStack.resolveInstructionEq, tableOverloads, tableContains]

end Lookup

theorem globalAdd (e : Environment) (a : Addition) :
    (e.add a).global.filter Addition.isGlobal = (e.global ++ [a]).filter Addition.isGlobal := by
  obtain ⟨nested, global⟩ := e
  cases here : a.isGlobal <;> cases nested <;> simp [add, here]

theorem globalRun (e : Environment) (ops : List ScopeOperation) :
    (e.run ops).global.filter Addition.isGlobal = (e.global ++ additions ops).filter Addition.isGlobal := by
  induction ops generalizing e with
  | nil => simp [run, additions]
  | cons op ops ih =>
    have rest := ih (e.apply op)
    change ((e.apply op).run ops).global.filter _ = _
    rw [rest, List.filter_append]
    cases op with
    | push | pop => exact (List.filter_append ..).symm
    | add a =>
      rw [apply, globalAdd, ← List.filter_append, List.append_assoc]
      rfl

theorem stackLanguage (e : Environment) (policy : CasePolicy) : Scope.SameLanguage (e.stack policy).global
    ((Scope.empty policy).extendAll (e.global.filter Addition.isGlobal)) :=
  Scope.SameLanguage.extendAll ⟨rfl, rfl, rfl⟩ e.global

theorem outerKept (e : Environment) (ops : List ScopeOperation) (deep : (unmatched ops).pops < e.nested.length) :
    (e.run ops).nested.drop ((unmatched ops).pushes + 1) = e.nested.drop ((unmatched ops).pops + 1) ∧
      (e.run ops).global = e.global ++ (additions ops).filter Addition.isGlobal := by
  induction ops generalizing e with
  | nil => exact ⟨rfl, (List.append_nil _).symm⟩
  | cons op ops ih =>
    change ((e.apply op).run ops).nested.drop _ = _ ∧ ((e.apply op).run ops).global = _
    cases op with
    | push =>
      cases counts : unmatched ops with
      | mk pops pushes =>
        simp only [unmatched, counts] at deep ⊢
        cases pops with
        | zero =>
          obtain ⟨outer, global⟩ := ih (e.apply .push) (by simp [counts, apply])
          refine ⟨?_, global⟩
          rw [counts] at outer
          rw [Unmatched.afterPush, ← List.drop_drop, outer]
          rfl
        | succ pops =>
          obtain ⟨outer, global⟩ := ih (e.apply .push) (by simpa [counts, apply, Unmatched.afterPush] using deep)
          rw [counts] at outer
          exact ⟨outer, global⟩
    | pop =>
      simp only [unmatched] at deep ⊢
      obtain ⟨outer, global⟩ := ih (e.apply .pop) (by simp [apply]; omega)
      refine ⟨?_, global⟩
      rw [outer, apply, List.drop_tail]
    | add a =>
      simp only [unmatched] at deep ⊢
      obtain ⟨outer, global⟩ := ih (e.apply (.add a)) (by rw [apply, depthAdd]; exact deep)
      obtain ⟨nested, old⟩ := e
      cases nested with
      | nil => cases deep
      | cons frame nested =>
        rw [outer, global]
        cases here : a.isGlobal <;>
          simp [apply, add, here, additions, ScopeOperation.addition?]

theorem blockRun (e : Environment) {inner : List ScopeOperation} (balanced : Balanced inner) :
    e.run (.push :: inner ++ [.pop]) =
      { e with global := e.global ++ (additions inner).filter Addition.isGlobal } := by
  have counts : unmatched inner = ⟨0, 0⟩ := balanced
  obtain ⟨outer, global⟩ := (e.apply .push).outerKept inner (by simp [counts, apply])
  have closed : e.run (.push :: inner ++ [.pop]) = ((e.apply .push).run inner).apply .pop := by
    simp [run, List.foldl_append]
  rw [counts] at outer
  rw [closed]
  change Environment.mk ((e.apply .push).run inner).nested.tail ((e.apply .push).run inner).global = _
  rw [global, ← List.drop_one, outer]
  rfl

theorem valueGlobal (e : Environment) (as : List Addition) (policy : CasePolicy) (name : String) :
    { e with global := e.global ++ as.filter Addition.isGlobal }.value? policy name = e.value? policy name := by
  simp only [value?, frames, List.findSome?_append, List.findSome?_cons, lastValue?, List.filterMap_append,
    Addition.globalBindings, List.append_nil]

theorem tableGlobal (e : Environment) (as : List Addition) (policy : CasePolicy) :
    { e with global := e.global ++ as.filter Addition.isGlobal }.table policy = e.table policy := by
  simp only [table, instructions, frames, List.flatMap_append, List.flatMap_singleton, List.filterMap_append,
    Addition.globalInstructions, List.append_nil]

end Environment

/- What a block with `inner` in it leaves behind: of all that was added, functions and gate modifiers. -/
structure BlockClosed (before : ScopeStack) (inner : List ScopeOperation) (after : ScopeStack) : Prop where
  nested : after.nested = before.nested
  global : after.global = before.global.extendAll ((additions inner).filter Addition.isGlobal)
  value (name) : after.resolveVariable name = before.resolveVariable name
  instruction (name args) : after.resolveInstruction name args = before.resolveInstruction name args
  function (name args) : after.resolveFunction name args =
    (before.global.extendAll ((additions inner).filter Addition.isGlobal)).resolveFunction name args
  modifier (name args) : after.resolveModifier name args =
    (before.global.extendAll ((additions inner).filter Addition.isGlobal)).modifiers.resolve name args

structure Refines (policy : CasePolicy) (initial : List Addition) (ops : List ScopeOperation) (s : ScopeStack) :
    Prop where
  depth : s.depth = (unmatched ops).pushes
  bottom : s.pop? = none ↔ s.depth = 0
  bottomKept : s.pop? = none → s.apply .pop = s
  value (name) : s.resolveVariable name =
    ((Environment.run ⟨[], initial⟩ ops).value? policy name).elim (.error (.unknownVariable name)) .ok
  overloads (name) : ((Environment.run ⟨[], initial⟩ ops).table policy).overloads name =
    s.scopes.flatMap fun scope => scope.instructions.overloads name
  instruction (name args) : s.resolveInstruction name args =
    ((Environment.run ⟨[], initial⟩ ops).table policy).instructionIn name args
  function (name args) : s.resolveFunction name args =
    ((Scope.empty policy).extendAll ((initial ++ additions ops).filter Addition.isGlobal)).resolveFunction name args
  modifier (name args) : s.resolveModifier name args =
    ((Scope.empty policy).extendAll ((initial ++ additions ops).filter Addition.isGlobal)).modifiers.resolve name args
  block {inner} (balanced : Balanced inner) : BlockClosed s inner (s.run (.push :: inner ++ [.pop]))

namespace ScopeStack

theorem popNone {s : ScopeStack} : s.pop? = none ↔ s.depth = 0 := by
  obtain ⟨policy, nested, global⟩ := s
  cases nested <;> simp [pop?, depth]

theorem blockClosed (e : Environment) (policy : CasePolicy) {inner : List ScopeOperation} (balanced : Balanced inner) :
    BlockClosed (e.stack policy) inner ((e.stack policy).run (.push :: inner ++ [.pop])) := by
  have global : ((Scope.empty policy).extendAll (e.global ++ (additions inner).filter Addition.isGlobal)) =
      (e.stack policy).global.extendAll ((additions inner).filter Addition.isGlobal) := List.foldl_append
  rw [Environment.stackRun, e.blockRun balanced]
  exact {
    nested := rfl
    global := global
    value := fun name => by rw [Environment.stackVariable, Environment.stackVariable, Environment.valueGlobal]
    instruction := fun name args => by
      rw [Environment.stackInstruction, Environment.stackInstruction, Environment.tableGlobal]
    function := fun name args => congrArg (·.resolveFunction name args) global
    modifier := fun name args => congrArg (·.modifiers.resolve name args) global }

theorem refinesEnvironment (policy : CasePolicy) (initial : List Addition) (ops : List ScopeOperation) :
    Refines policy initial ops ((ofGlobal ((Scope.empty policy).extendAll initial) policy).run ops) := by
  have ran : (ofGlobal ((Scope.empty policy).extendAll initial) policy).run ops =
      (Environment.run ⟨[], initial⟩ ops).stack policy := Environment.stackRun ⟨[], initial⟩ policy ops
  have language := (Environment.run ⟨[], initial⟩ ops).stackLanguage policy
  rw [Environment.globalRun] at language
  rw [ran]
  exact {
    depth := by
      rw [depth, Environment.stack, List.length_map, Environment.depthRun, List.length_nil]
      omega
    bottom := popNone
    bottomKept := fun none => by rw [apply, none]
    value := Environment.stackVariable _ policy
    overloads := Environment.tableOverloads _ policy
    instruction := Environment.stackInstruction _ policy
    function := language.resolveFunction
    modifier := fun name args => by rw [resolveModifier, language.modifiers]
    block := blockClosed _ policy }

end ScopeStack

end Cqasm
