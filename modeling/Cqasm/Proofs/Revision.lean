import Mathlib.Data.List.Forall2
import Cqasm.Proofs.Run

/-! Revisions of a program: names spelled in another way, other locations, annotations left out. A revision that a
case policy cannot tell from the original changes no lookup, and every expression comes out as before. -/
namespace Cqasm

open Cqasm.Graph (Variable)
open Cqasm.Tree (Expr IndexEntry)

/- The new spelling of a gate decides that of the gates made from it, and the new places of two parts decide that
of what they make up. -/
structure Revision where
  spelling : String → String
  place : Option Location → Option Location
  annotated : Bool
  composed (c : Composition) (gate : String) : spelling (c.nameOf gate) = c.nameOf (spelling gate)
  nowhere : place none = none
  innermost (inner outer : Option Location) : place (inner.or outer) = (place inner).or (place outer)
  hull (l other : Option Location) : place (Graph.Block.hull l other) = Graph.Block.hull (place l) (place other)

section Parts

variable {ν : Type} (r : Revision) (f : ν → ν)

def AnnotationItem.revised (a : AnnotationItem ν) : AnnotationItem ν :=
  ⟨a.interface, a.operation, a.operands.map f, r.place a.location⟩

def annotationsRevised (as : List (AnnotationItem ν)) : List (AnnotationItem ν) :=
  if r.annotated then as.map (·.revised r f) else []

def GateNode.revised (node : GateNode ν) : GateNode ν :=
  ⟨r.spelling node.name, node.parameter.map f, annotationsRevised r f node.annotations, r.place node.location⟩

def Gate.revised : Gate ν → Gate ν
  | .named node => .named (node.revised r f)
  | .modified node inner => .modified (node.revised r f) inner.revised

end Parts

namespace Tree

mutual

def Expr.revised (r : Revision) : Expr → Expr
  | .literal value location => .literal value (r.place location)
  | .name name location => .name (r.spelling name) (r.place location)
  | .index base entries location => .index (base.revised r) (entriesRevised r entries) (r.place location)
  | .apply function arguments location => .apply (r.spelling function) (exprsRevised r arguments) (r.place location)
  | .list items location => .list (exprsRevised r items) (r.place location)

def exprsRevised (r : Revision) : List Expr → List Expr
  | [] => []
  | e :: rest => e.revised r :: exprsRevised r rest

def entryRevised (r : Revision) : IndexEntry Expr → IndexEntry Expr
  | .item index => .item (index.revised r)
  | .range first last => .range (first.revised r) (last.revised r)

def entriesRevised (r : Revision) : List (IndexEntry Expr) → List (IndexEntry Expr)
  | [] => []
  | entry :: rest => entryRevised r entry :: entriesRevised r rest

end

theorem Expr.locationRevised (r : Revision) (e : Expr) : (e.revised r).location = r.place e.location := by
  cases e <;> simp only [Expr.revised, Expr.location]

section Statements

variable (r : Revision)

def Declaration.revised (d : Declaration) : Declaration where
  name := r.spelling d.name
  nameLocation := r.place d.nameLocation
  element := d.element
  size := d.size
  initializer := d.initializer.map (Expr.revised r)
  annotations := annotationsRevised r (Expr.revised r) d.annotations
  location := r.place d.location

def GateInstruction.revised (i : GateInstruction) : GateInstruction where
  gate := i.gate.revised r (Expr.revised r)
  operands := exprsRevised r i.operands
  annotations := annotationsRevised r (Expr.revised r) i.annotations
  location := r.place i.location

def NonGateInstruction.revised (i : NonGateInstruction) : NonGateInstruction where
  name := r.spelling i.name
  parameter := i.parameter.map (Expr.revised r)
  operands := exprsRevised r i.operands
  annotations := annotationsRevised r (Expr.revised r) i.annotations
  location := r.place i.location

def Assignment.revised (a : Assignment) : Assignment where
  target := a.target.revised r
  value := a.value.revised r
  annotations := annotationsRevised r (Expr.revised r) a.annotations
  location := r.place a.location

mutual

def Statement.revised : Statement → Statement
  | .declare d => .declare (d.revised r)
  | .gate i => .gate (i.revised r)
  | .nonGate i => .nonGate (i.revised r)
  | .assign a => .assign (a.revised r)
  | .block body location => .block (statementsRevised body) (r.place location)

def statementsRevised : List Statement → List Statement
  | [] => []
  | first :: rest => first.revised :: statementsRevised rest

end

def Program.revised (p : Program) : Program :=
  ⟨p.version, r.place p.versionLocation, statementsRevised r p.statements⟩

end Statements

end Tree

namespace Graph

variable (r : Revision)

def Variable.revised (v : Variable) : Variable :=
  ⟨r.spelling v.name, v.type, annotationsRevised r id v.annotations, r.place v.location⟩

def GateInstruction.revised (g : GateInstruction) : GateInstruction :=
  ⟨g.instruction, g.gate.revised r id, g.operands, annotationsRevised r id g.annotations, r.place g.location⟩

def NonGateInstruction.revised (g : NonGateInstruction) : NonGateInstruction :=
  ⟨g.instruction, g.operands, g.parameter, annotationsRevised r id g.annotations, r.place g.location⟩

def Assignment.revised (g : Assignment) : Assignment :=
  ⟨g.target, g.value, annotationsRevised r id g.annotations, r.place g.location⟩

mutual

def Statement.revised : Statement → Statement
  | .gate g => .gate (g.revised r)
  | .nonGate g => .nonGate (g.revised r)
  | .assign g => .assign (g.revised r)
  | .block vars statements location => .block vars (statementsRevised statements) (r.place location)

def statementsRevised : List Statement → List Statement
  | [] => []
  | first :: rest => first.revised :: statementsRevised rest

end

theorem statementsRevisedEq (ss : List Statement) : statementsRevised r ss = ss.map (Statement.revised r) := by
  induction ss with
  | nil => rfl
  | cons first rest ih => rw [statementsRevised, ih, List.map_cons]

theorem Statement.locationRevised (st : Statement) : (st.revised r).location = r.place st.location := by
  cases st <;> simp only [Statement.revised] <;> rfl

def Block.revised (b : Block) : Block := ⟨b.vars, statementsRevised r b.statements, r.place b.location⟩

theorem Block.toStatementRevised (b : Block) : (b.revised r).toStatement = b.toStatement.revised r := by
  simp only [Block.toStatement, Statement.revised]
  rfl

theorem Block.emptyRevised : Block.empty.revised r = .empty := by
  simp only [Block.empty, Block.revised, statementsRevised, r.nowhere]

theorem Block.addStatementRevised (b : Block) (st : Statement) :
    (b.addStatement st).revised r = (b.revised r).addStatement (st.revised r) := by
  simp only [Block.addStatement, Block.revised, statementsRevisedEq, List.map_append, List.map_cons, List.map_nil,
    r.hull, Statement.locationRevised]

def Program.revised (p : Program) : Program :=
  ⟨p.apiVersion, p.version, p.block.revised r, p.vars.map (Variable.revised r)⟩

end Graph

def Fault.revised (r : Revision) : Fault → Fault
  | .unknownName name => .unknownName (r.spelling name)
  | .unknownVariable name => .unknownVariable (r.spelling name)
  | .noOverload name arguments => .noOverload (r.spelling name) arguments
  | .noInstruction known name operands => .noInstruction known (r.spelling name) operands
  | .badParameter name parameters => .badParameter (r.spelling name) parameters
  | .redeclared name => .redeclared (r.spelling name)
  | fault => fault

/- What a native finds wrong it may put into words of its own, which stay as they are. -/
inductive Fault.Revised (r : Revision) : Fault → Fault → Prop where
  | untouched (fault : Fault) : Fault.Revised r fault fault
  | spelled (fault : Fault) : Fault.Revised r fault (fault.revised r)

theorem Fault.kindRevised {r : Revision} {f g : Fault} (revised : f.Revised r g) : g.kind = f.kind := by
  cases revised with
  | untouched => rfl
  | spelled => cases f <;> rfl

theorem Fault.placeRevised {r : Revision} {f g : Fault} (revised : f.Revised r g) : g.place = f.place := by
  cases revised with
  | untouched => rfl
  | spelled => cases f <;> rfl

/- A place that the fault brings along is no part of the program, so it is the same in both. -/
structure Diagnostic.Revised (r : Revision) (d e : Diagnostic) : Prop where
  fault : d.fault.Revised r e.fault
  brought {l : Location} : d.fault.place = some l → d.location = some l ∧ e.location = some l
  moved : d.fault.place = none → e.location = r.place d.location

namespace Diagnostic.Revised

variable {r : Revision} {d e : Diagnostic}

theorem within (revised : d.Revised r e) (location : Option Location) :
    (d.within location).Revised r (e.within (r.place location)) where
  fault := revised.fault
  brought own := by
    obtain ⟨first, second⟩ := revised.brought own
    simp only [Diagnostic.within, first, second, Option.some_or, and_self]
  moved none := by simp only [Diagnostic.within, revised.moved none, r.innermost]

theorem stays (revised : d.Revised r e) (same : r.place = id) : e.location = d.location := by
  cases own : d.fault.place with
  | none => rw [revised.moved own, same, id]
  | some l =>
    obtain ⟨first, second⟩ := revised.brought own
    rw [first, second]

end Diagnostic.Revised

inductive Agree {ε δ α β : Type} (E : ε → δ → Prop) (A : α → β → Prop) : Except ε α → Except δ β → Prop where
  | ok {a : α} {b : β} (same : A a b) : Agree E A (.ok a) (.ok b)
  | error {e : ε} {d : δ} (same : E e d) : Agree E A (.error e) (.error d)

namespace Agree

variable {ε δ α β γ κ : Type} {E : ε → δ → Prop} {A : α → β → Prop} {B : γ → κ → Prop}

theorem ends {x : Except ε α} {y : Except δ β} (agree : Agree E A x y) :
    (∃ a b, x = .ok a ∧ y = .ok b ∧ A a b) ∨ ∃ e d, x = .error e ∧ y = .error d ∧ E e d := by
  cases agree with
  | ok same => exact .inl ⟨_, _, rfl, rfl, same⟩
  | error same => exact .inr ⟨_, _, rfl, rfl, same⟩

theorem bind {x : Except ε α} {y : Except δ β} {k : α → Except ε γ} {l : β → Except δ κ} (first : Agree E A x y)
    (next : ∀ {a b}, A a b → Agree E B (k a) (l b)) : Agree E B (x >>= k) (y >>= l) := by
  cases first with
  | ok same => exact next same
  | error same => exact .error same

theorem bindEq {x : Except ε α} {y : Except δ α} {k : α → Except ε γ} {l : α → Except δ κ} (first : Agree E Eq x y)
    (next : ∀ a, Agree E B (k a) (l a)) : Agree E B (x >>= k) (y >>= l) :=
  first.bind fun same => same ▸ next _

theorem pure {a : α} {b : β} (same : A a b) : Agree E A (Pure.pure a) (Pure.pure b) := .ok same

theorem map {x : Except ε α} {y : Except δ β} {f : α → γ} {g : β → κ} (agree : Agree E A x y)
    (next : ∀ {a b}, A a b → B (f a) (g b)) : Agree E B (x.map f) (y.map g) := by
  cases agree with
  | ok same => exact .ok (next same)
  | error same => exact .error same

theorem meet {η : Type} {x : Except ε α} {y : Except η γ} {z : Except δ β} {F : η → δ → Prop} {C : γ → β → Prop}
    {G : ε → η → Prop} {D : α → γ → Prop} (first : Agree E A x z) (second : Agree F C y z)
    (errors : ∀ {e f d}, E e d → F f d → G e f) (values : ∀ {a c b}, A a b → C c b → D a c) :
    Agree G D x y := by
  cases first with
  | ok here =>
    cases second with
    | ok there => exact .ok (values here there)
  | error here =>
    cases second with
    | error there => exact .error (errors here there)

theorem toOption {x : Except ε α} {y : Except δ α} (agree : Agree E Eq x y) : x.toOption = y.toOption := by
  cases agree with
  | ok same => exact congrArg some same
  | error => rfl

end Agree

theorem Fault.sameResult {r : Revision} {α : Type} (x : Except Fault α) : Agree (Fault.Revised r) Eq x x := by
  cases x with
  | ok a => exact .ok rfl
  | error fault => exact .error (.untouched fault)

namespace Analysis

variable {r : Revision} {α β : Type} {A : α → β → Prop}

theorem unplacedRevised {x : Except Fault α} {y : Except Fault β} (agree : Agree (Fault.Revised r) A x y) :
    Agree (Diagnostic.Revised r) A (unplaced x) (unplaced y) := by
  cases agree with
  | ok same => exact .ok same
  | error same =>
    refine .error ⟨same, fun own => ⟨own, (Fault.placeRevised same).trans own⟩, fun none => ?_⟩
    exact (Fault.placeRevised same).trans (none.trans (r.nowhere.symm.trans (congrArg r.place none.symm)))

theorem unplacedSame (x : Except Fault α) : Agree (Diagnostic.Revised r) Eq (unplaced x) (unplaced x) :=
  unplacedRevised (Fault.sameResult x)

theorem placedRevised {x : Except Diagnostic α} {y : Except Diagnostic β} (location : Option Location)
    (agree : Agree (Diagnostic.Revised r) A x y) :
    Agree (Diagnostic.Revised r) A (placed location x) (placed (r.place location) y) := by
  cases agree with
  | ok same => exact .ok same
  | error same => exact .error (same.within location)

end Analysis

def Revision.Keeps (r : Revision) (policy : CasePolicy) : Prop := ∀ name, policy.key (r.spelling name) = policy.key name

section Tables

variable {r : Revision}

theorem VariableTable.findSpelled {t : VariableTable} (keeps : r.Keeps t.policy) (name : String) :
    t.find? (r.spelling name) = t.find? name := by
  rw [find?, find?, keeps]

theorem VariableTable.addSpelled {t : VariableTable} (keeps : r.Keeps t.policy) (name : String) (v : Value) :
    t.add (r.spelling name) v = t.add name v := by
  rw [add, add, keeps]

namespace OverloadTable

variable {α : Type} {t : OverloadTable α} (keeps : r.Keeps t.policy) (name : String)
include keeps

theorem containsSpelled : t.contains (r.spelling name) = t.contains name := by
  rw [contains, contains, keeps]

theorem resolveSpelled (args : List Value) :
    Agree (Fault.Revised r) Eq (t.resolve name args) (t.resolve (r.spelling name) args) := by
  have overloads : t.overloads (r.spelling name) = t.overloads name := by
    rw [overloads, overloads, find?, find?, keeps]
  rw [resolveEq, resolveEq, containsSpelled keeps, overloads]
  split
  · cases Overload.firstMatch? (t.overloads name) args with
    | none => exact .error (.spelled (.noOverload name (args.map Value.type)))
    | some found => exact .ok rfl
  · exact .error (.spelled (.unknownName name))

end OverloadTable

namespace InstructionSet

variable {set : InstructionSet} (keeps : r.Keeps set.policy) (name : String)
include keeps

theorem keySpelled : set.key (r.spelling name) = set.key name := keeps name

theorem isSingleQubitModifierSpelled :
    set.isSingleQubitModifier (r.spelling name) = set.isSingleQubitModifier name := by
  simp only [isSingleQubitModifier, modifier?, keySpelled keeps]

theorem isTwoQubitGateSpelled : set.isTwoQubitGate (r.spelling name) = set.isTwoQubitGate name := by
  simp only [isTwoQubitGate, isTwoQubitNamedGate, isComposition, keySpelled keeps]

theorem paramTypeSpelled : set.paramType? (r.spelling name) = set.paramType? name := by
  simp only [paramType?, paramCode?, signature?, modifier?, keySpelled keeps]

theorem resolveParameterSpelled (given : Option Value) :
    Agree (Fault.Revised r) Eq (set.resolveParameter? name given) (set.resolveParameter? (r.spelling name) given) := by
  cases given with
  | none =>
    simp only [resolveParameter?, paramTypeSpelled keeps]
    split
    · exact .error (.spelled (.badParameter name []))
    · exact .ok rfl
  | some v =>
    simp only [resolveParameter?, resolveParameter, paramTypeSpelled keeps]
    have refused : Agree (Fault.Revised r) Eq (.error (.badParameter name [v.type]) : Except Fault Value)
        (.error (.badParameter (r.spelling name) [v.type])) := .error (.spelled (.badParameter name [v.type]))
    refine Agree.bindEq ?_ fun promoted => .pure rfl
    cases set.paramType? name with
    | none => exact refused
    | some type =>
      dsimp only
      split
      · cases v.promote type with
        | none => exact refused
        | some promoted => exact .ok rfl
      · exact refused

end InstructionSet

namespace Gate

variable {ν : Type} {set : InstructionSet} {f : ν → ν}

theorem terminalNameRevised (g : Gate ν) : (g.revised r f).terminalName = r.spelling g.terminalName := by
  induction g with
  | named node => rfl
  | modified node inner ih => exact ih

theorem resolutionNameRevised (keeps : r.Keeps set.policy) (g : Gate ν) :
    (g.revised r f).resolutionName set = r.spelling (g.resolutionName set) := by
  cases g with
  | named node => rfl
  | modified node inner =>
    simp only [revised, resolutionName, GateNode.revised, InstructionSet.isSingleQubitModifierSpelled keeps,
      terminalNameRevised, r.composed]

theorem requireModifiableRevised (keeps : r.Keeps set.policy) (g : Gate ν) :
    (g.revised r f).requireModifiable set = g.requireModifiable set := by
  cases g with
  | named node => rfl
  | modified node inner =>
    have inside : (inner.revised r f).isTwoQubit set = inner.isTwoQubit set := by
      rw [isTwoQubit, isTwoQubit, resolutionNameRevised keeps, InstructionSet.isTwoQubitGateSpelled keeps]
    rw [revised, requireModifiable, requireModifiable, inside]

end Gate

end Tables

def Scope.revised (r : Revision) (s : Scope) : Scope := { s with block := s.block.revised r }

structure Scope.Under (policy : CasePolicy) (s : Scope) : Prop where
  vars : s.vars.policy = policy
  natives : s.natives.policy = policy
  functions : s.functions.policy = policy
  instructions : s.instructions.policy = policy
  modifiers : s.modifiers.policy = policy

structure ScopeStack.Under (policy : CasePolicy) (s : ScopeStack) : Prop where
  own : s.policy = policy
  nested : ∀ scope ∈ s.nested, scope.Under policy
  global : s.global.Under policy

theorem Scope.emptyUnder (policy : CasePolicy) : (Scope.empty policy).Under policy := ⟨rfl, rfl, rfl, rfl, rfl⟩

theorem Scope.resolveFunctionSpelled {r : Revision} {policy : CasePolicy} {s : Scope} (under : s.Under policy)
    (keeps : r.Keeps policy) (name : String) (args : List Value) :
    Agree (Fault.Revised r) Eq (s.resolveFunction name args) (s.resolveFunction (r.spelling name) args) := by
  obtain ⟨_, natives, functions, _, _⟩ := under
  have evaluated : Agree (Fault.Revised r) Eq (s.evaluate name args) (s.evaluate (r.spelling name) args) :=
    (OverloadTable.resolveSpelled (natives ▸ keeps) name args).bindEq fun found => Fault.sameResult (found.1 found.2)
  have called : Agree (Fault.Revised r) Eq (s.call name args) (s.call (r.spelling name) args) :=
    (OverloadTable.resolveSpelled (functions ▸ keeps) name args).bindEq fun found => .pure rfl
  rw [Scope.resolveFunction, Scope.resolveFunction]
  rcases evaluated.ends with ⟨v, w, done, again, eq⟩ | ⟨fault, other, failed, again, revised⟩
  · rw [done, again]
    exact .ok eq
  · have defers : Scope.defersToCall other = Scope.defersToCall fault := by
      rw [Scope.defersToCall, Scope.defersToCall, Fault.kindRevised revised]
    rw [failed, again]
    simp only [defers, OverloadTable.containsSpelled (functions ▸ keeps),
      OverloadTable.containsSpelled (natives ▸ keeps)]
    split
    · exact called
    · exact .error revised

namespace ScopeStack

def revised (r : Revision) (s : ScopeStack) : ScopeStack :=
  ⟨s.policy, s.nested.map (Scope.revised r), s.global.revised r⟩

theorem scopesRevised (r : Revision) (s : ScopeStack) : (s.revised r).scopes = s.scopes.map (Scope.revised r) := by
  simp [scopes, revised]

theorem Under.scopes {policy : CasePolicy} {s : ScopeStack} (under : s.Under policy) :
    ∀ scope ∈ s.scopes, scope.Under policy := by
  simp only [ScopeStack.scopes, List.forall_mem_append, List.forall_mem_singleton]
  exact ⟨under.nested, under.global⟩

theorem modifyRevised (r : Revision) (s : ScopeStack) {f g : Scope → Scope}
    (same : (f s.current).revised r = g (s.current.revised r)) :
    (s.modifyCurrent f).revised r = (s.revised r).modifyCurrent g := by
  obtain ⟨policy, nested, global⟩ := s
  cases nested with
  | nil => exact congrArg (ScopeStack.mk policy []) same
  | cons inner outer => exact congrArg (fun scope => ScopeStack.mk policy (scope :: _) _) same

theorem addStatementRevised (r : Revision) (s : ScopeStack) (st : Graph.Statement) :
    (s.addStatement st).revised r = (s.revised r).addStatement (st.revised r) := by
  refine s.modifyRevised r ?_
  simp only [Scope.revised, Scope.addStatement, Graph.Block.addStatementRevised]

theorem currentRevised (r : Revision) (s : ScopeStack) : (s.revised r).current = s.current.revised r := by
  obtain ⟨policy, nested, global⟩ := s
  cases nested <;> rfl

section Lookup

variable {r : Revision} {policy : CasePolicy} {s : ScopeStack} (under : s.Under policy) (keeps : r.Keeps policy)
  (name : String)
include under keeps

theorem resolveVariableRevised :
    Agree (Fault.Revised r) Eq (s.resolveVariable name) ((s.revised r).resolveVariable (r.spelling name)) := by
  have found : ((s.revised r).scopes.findSome? fun scope => scope.vars.find? (r.spelling name)) =
      s.scopes.findSome? fun scope => scope.vars.find? name := by
    rw [scopesRevised, List.findSome?_map, ← List.head?_filterMap, ← List.head?_filterMap]
    refine congrArg List.head? (List.filterMap_congr fun scope member => ?_)
    exact VariableTable.findSpelled ((under.scopes scope member).vars ▸ keeps) name
  rw [resolveVariable, resolveVariable, found]
  split
  · exact .ok rfl
  · exact .error (.spelled (.unknownVariable name))

theorem resolveFunctionRevised (args : List Value) :
    Agree (Fault.Revised r) Eq (s.resolveFunction name args) ((s.revised r).resolveFunction (r.spelling name) args) :=
  Scope.resolveFunctionSpelled under.global keeps name args

theorem resolveModifierRevised (args : List Value) :
    Agree (Fault.Revised r) Eq (s.resolveModifier name args) ((s.revised r).resolveModifier (r.spelling name) args) :=
  OverloadTable.resolveSpelled (under.global.modifiers ▸ keeps) name args

theorem resolveInstructionRevised (args : List Value) : Agree (Fault.Revised r) Eq (s.resolveInstruction name args)
    ((s.revised r).resolveInstruction (r.spelling name) args) := by
  have kept (scope : Scope) (member : scope ∈ s.scopes) : r.Keeps scope.instructions.policy :=
    (under.scopes scope member).instructions ▸ keeps
  have found : ((s.revised r).scopes.findSome? fun scope =>
        (scope.instructions.resolve (r.spelling name) args).toOption) =
      s.scopes.findSome? fun scope => (scope.instructions.resolve name args).toOption := by
    rw [scopesRevised, List.findSome?_map, ← List.head?_filterMap, ← List.head?_filterMap]
    refine congrArg List.head? (List.filterMap_congr fun scope member => ?_)
    exact (OverloadTable.resolveSpelled (kept scope member) name args).toOption.symm
  have known : ((s.revised r).scopes.any fun scope => scope.instructions.contains (r.spelling name)) =
      s.scopes.any fun scope => scope.instructions.contains name := by
    rw [scopesRevised, List.any_map, Bool.eq_iff_iff, List.any_eq_true, List.any_eq_true]
    refine exists_congr fun scope => and_congr_right fun member => ?_
    rw [← OverloadTable.containsSpelled (kept scope member) name]
    rfl
  rw [resolveInstruction, resolveInstruction, found, known]
  split
  · exact .ok rfl
  · exact .error (.spelled (.noInstruction _ name (args.map Value.type)))

end Lookup

end ScopeStack

end Cqasm
