import Mathlib.Logic.Relation
import Cqasm.Analyzer
import Cqasm.Proofs.Elaboration

/-! Runs of the analysis. A run adds variables and statements one at a time and opens and closes blocks. Every
statement that it leaves behind, at any depth, was made at a state that the run went through, and so was every
variable. -/
namespace Cqasm

open Cqasm.Graph (Variable)

namespace ScopeStack

def outer (s : ScopeStack) : List Scope := s.scopes.tail

theorem scopesEq (s : ScopeStack) : s.scopes = s.current :: s.outer := by
  obtain ⟨policy, nested, global⟩ := s
  cases nested <;> rfl

theorem scopesModify (s : ScopeStack) (f : Scope → Scope) : (s.modifyCurrent f).scopes = f s.current :: s.outer := by
  obtain ⟨policy, nested, global⟩ := s
  cases nested <;> rfl

theorem scopesAddStatement (s : ScopeStack) (st : Graph.Statement) :
    (s.addStatement st).scopes = s.current.addStatement st :: s.outer := s.scopesModify (·.addStatement st)

theorem depthModify (s : ScopeStack) (f : Scope → Scope) : (s.modifyCurrent f).depth = s.depth := by
  obtain ⟨policy, nested, global⟩ := s
  cases nested <;> rfl

theorem modifyModify (s : ScopeStack) (f g : Scope → Scope) :
    (s.modifyCurrent f).modifyCurrent g = s.modifyCurrent fun scope => g (f scope) := by
  obtain ⟨policy, nested, global⟩ := s
  cases nested <;> rfl

theorem popOk {s rest : ScopeStack} {inner : Scope} (popped : s.pop? = some (inner, rest)) :
    s = { rest with nested := inner :: rest.nested } := by
  obtain ⟨policy, nested, global⟩ := s
  cases nested with
  | nil => cases popped
  | cons scope nested =>
    cases popped
    rfl

theorem resolvedInstruction {s : ScopeStack} {name : String} {args : List Value} {found : Instruction × List Value}
    (resolved : s.resolveInstruction name args = .ok found) :
    ∃ scope ∈ s.scopes, scope.instructions.resolve name args = .ok found := by
  unfold resolveInstruction at resolved
  split at resolved
  case h_1 result first =>
    cases resolved
    obtain ⟨scope, member, here⟩ := List.exists_of_findSome?_eq_some first
    refine ⟨scope, member, ?_⟩
    cases decided : scope.instructions.resolve name args with
    | ok other => simpa [decided, Except.toOption] using here
    | error fault => simp [decided, Except.toOption] at here
  case h_2 => cases resolved

end ScopeStack

namespace Analysis

namespace State

def stack (s : State) : List Scope := s.scopes.scopes

theorem stackEq (s : State) : s.stack = s.scopes.current :: s.scopes.outer := s.scopes.scopesEq

theorem addStatementStack (s : State) (st : Graph.Statement) :
    (s.addStatement st).stack = s.scopes.current.addStatement st :: s.scopes.outer := s.scopes.scopesAddStatement st

def withVariable (scope : Scope) (id : Nat) (v : Variable) : Scope :=
  (scope.addBlockVariable id).addVariable v.name (.reference id v.type)

theorem addVariableScopes (s : State) (v : Variable) :
    (s.addVariable v).scopes = s.scopes.modifyCurrent (withVariable · s.vars.length v) :=
  s.scopes.modifyModify (·.addBlockVariable s.vars.length) (·.addVariable v.name (.reference s.vars.length v.type))

theorem addVariableStack (s : State) (v : Variable) :
    (s.addVariable v).stack = withVariable s.scopes.current s.vars.length v :: s.scopes.outer := by
  rw [stack, addVariableScopes]
  exact s.scopes.scopesModify _

theorem addVariableResolves (s : State) (v : Variable) :
    (s.addVariable v).scopes.resolveVariable v.name = .ok (.reference s.vars.length v.type) := by
  have found : (withVariable s.scopes.current s.vars.length v).vars.find? v.name =
      some (.reference s.vars.length v.type) := by
    simp [withVariable, Scope.addVariable, VariableTable.find?, VariableTable.add, Table.findInsert]
  rw [ScopeStack.resolveVariable, show (s.addVariable v).scopes.scopes = _ from s.addVariableStack v,
    List.findSome?_cons, found]

theorem popStack {s : State} {inner : Scope} {rest : ScopeStack} (popped : s.scopes.pop? = some (inner, rest)) :
    s.stack = inner :: rest.current :: rest.outer := by
  rw [stack, ScopeStack.popOk popped]
  exact congrArg (inner :: ·) rest.scopesEq

end State

inductive Made (set : InstructionSet) (scopes : ScopeStack) : Graph.Statement → Prop where
  | gate {i g args} (origin : GateInstructionFrom set scopes i g args) : Made set scopes (.gate g)
  | nonGate {i g given args} (origin : NonGateInstructionFrom set scopes i g given args) : Made set scopes (.nonGate g)
  | assign {a g given} (origin : AssignmentFrom scopes a g given) : Made set scopes (.assign g)

inductive Step (set : InstructionSet) : State → State → Prop where
  | note (s ds) : Step set s (s.note ds)
  | add {s st} (made : Made set s.scopes st) : Step set s (s.addStatement st)
  | declare {s d v} (declared : VariableFrom s d v) : Step set s (s.addVariable v)
  | openBlock (s) : Step set s s.openBlock
  | closeBlock {s inner rest} (popped : s.scopes.pop? = some (inner, rest)) :
      Step set s { s with scopes := rest.addStatement inner.block.toStatement }

abbrev Reaches (set : InstructionSet) : State → State → Prop := Relation.ReflTransGen (Step set)

section Runs

variable {set : InstructionSet}

theorem invariantReached {I : State → Prop} {s t : State} (initial : I s)
    (preserved : ∀ {u v}, Reaches set s u → I u → Step set u v → I v) (reached : Reaches set s t) : I t := by
  induction reached with
  | refl => exact initial
  | tail before step ih => exact preserved before ih step

theorem commitReaches {s : State} (location : Option Location) {outcome : Outcome Graph.Statement}
    (made : ∀ st, outcome.result = .ok st → Made set s.scopes st) : Reaches set s (s.commit location outcome) := by
  have noted : Reaches set s (s.note outcome.noted) := .single (.note s _)
  unfold State.commit
  cases result : outcome.result with
  | ok st => exact noted.tail (.add (made st result))
  | error d => exact noted.tail (.note _ _)

theorem closeBlockReaches (s : State) : Reaches set s s.closeBlock := by
  unfold State.closeBlock
  cases popped : s.scopes.pop? with
  | some found => exact .single (.closeBlock popped)
  | none => exact .refl

theorem assignInitialReaches (s : State) (v : Variable) (d : Tree.Declaration) :
    Reaches set (s.addVariable v) (assignInitial (s.addVariable v) d (.reference s.vars.length v.type)) := by
  unfold assignInitial
  cases d.initializer with
  | none => exact .refl
  | some value =>
    refine commitReaches d.location fun st done => ?_
    obtain ⟨g, assigned, rfl⟩ := Outcome.resultMap.mp done
    have target : expression (s.addVariable v).scopes (.name v.name none) = .ok (.reference s.vars.length v.type) := by
      rw [expression, placedOk, unplacedOk]
      exact s.addVariableResolves v
    have same : (assignment (s.addVariable v).scopes ⟨.name v.name none, value, [], d.location⟩).result = .ok g :=
      Outcome.resultBind.mpr ⟨_, target, assigned⟩
    obtain ⟨given, origin⟩ := assignmentOk same
    exact .assign origin

theorem declareReaches (s : State) (d : Tree.Declaration) : Reaches set s (declare s d) := by
  have noted : Reaches set s (s.note (declaredVariable s d).noted) := .single (.note s _)
  simp only [declare]
  cases result : (declaredVariable s d).result with
  | error diagnostic => exact noted.tail (.note _ _)
  | ok v =>
    have declared : VariableFrom (s.note (declaredVariable s d).noted) d v :=
      let origin := declaredVariableOk result
      ⟨origin.name, origin.type, origin.fresh, origin.annotations, origin.location⟩
    exact (noted.tail (.declare declared)).trans (assignInitialReaches _ v d)

mutual

theorem statementReaches (s : State) : (tree : Tree.Statement) → Reaches set s (statement set s tree)
  | .declare d => declareReaches s d
  | .gate i => by
    refine commitReaches i.location fun st done => ?_
    obtain ⟨g, analysed, rfl⟩ := Outcome.resultMap.mp done
    obtain ⟨args, origin⟩ := gateInstructionOk analysed
    exact .gate origin
  | .nonGate i => by
    refine commitReaches i.location fun st done => ?_
    obtain ⟨g, analysed, rfl⟩ := Outcome.resultMap.mp done
    obtain ⟨given, args, origin⟩ := nonGateInstructionOk analysed
    exact .nonGate origin
  | .assign a => by
    refine commitReaches a.location fun st done => ?_
    obtain ⟨g, analysed, rfl⟩ := Outcome.resultMap.mp done
    obtain ⟨given, origin⟩ := assignmentOk analysed
    exact .assign origin
  | .block body _ =>
    have opened : Reaches set s s.openBlock := .single (.openBlock s)
    (opened.trans (statementsReach s.openBlock body)).trans (closeBlockReaches _)

theorem statementsReach (s : State) : (trees : List Tree.Statement) → Reaches set s (statements set s trees)
  | [] => .refl
  | first :: rest => (statementReaches s first).trans (statementsReach _ rest)

end

/- A relation between states that holds across all that statements do, and across a block where it holds inside. -/
structure Composes (R : State → State → Prop) : Prop where
  refl (s) : R s s
  trans {s t u} : R s t → R t u → R s u
  note (s ds) : R s (s.note ds)
  addStatement (s st) : R s (s.addStatement st)
  addVariable (s v) : R s (s.addVariable v)
  block {s t} : R s.openBlock t → R s t.closeBlock

namespace Composes

variable {R : State → State → Prop} (composes : Composes R)
include composes

theorem commit (s : State) (location : Option Location) (outcome : Outcome Graph.Statement) :
    R s (s.commit location outcome) := by
  have noted := composes.note s outcome.noted
  unfold State.commit
  cases outcome.result with
  | ok st => exact composes.trans noted (composes.addStatement _ st)
  | error d => exact composes.trans noted (composes.note _ _)

theorem declare (s : State) (d : Tree.Declaration) : R s (Analysis.declare s d) := by
  have noted := composes.note s (declaredVariable s d).noted
  simp only [Analysis.declare]
  cases (declaredVariable s d).result with
  | error found => exact composes.trans noted (composes.note _ _)
  | ok v =>
    have added := composes.trans noted (composes.addVariable _ v)
    unfold assignInitial
    cases d.initializer with
    | none => exact added
    | some value => exact composes.trans added (composes.commit _ _ _)

mutual

theorem statement (s : State) : (tree : Tree.Statement) → R s (Analysis.statement set s tree)
  | .declare d => composes.declare s d
  | .gate _ | .nonGate _ | .assign _ => composes.commit s _ _
  | .block body _ => composes.block (statements s.openBlock body)

theorem statements (s : State) : (trees : List Tree.Statement) → R s (Analysis.statements set s trees)
  | [] => composes.refl s
  | first :: rest => composes.trans (statement s first) (statements _ rest)

end

end Composes

theorem closeBlockDepth (s : State) : s.closeBlock.scopes.depth = s.scopes.depth - 1 := by
  unfold State.closeBlock
  cases popped : s.scopes.pop? with
  | some found =>
    obtain ⟨inner, rest⟩ := found
    rw [ScopeStack.popOk popped]
    exact ScopeStack.depthModify _ _
  | none =>
    cases nested : s.scopes.nested with
    | nil => simp [ScopeStack.depth, nested]
    | cons inner outer => simp [ScopeStack.pop?, nested] at popped

theorem depthComposes : Composes fun s t => t.scopes.depth = s.scopes.depth where
  refl _ := rfl
  trans first second := second.trans first
  note _ _ := rfl
  addStatement s _ := s.scopes.depthModify _
  addVariable s v := by
    rw [State.addVariableScopes]
    exact s.scopes.depthModify _
  block inside := by
    rw [closeBlockDepth, inside]
    rfl

theorem statementsDepth (s : State) (trees : List Tree.Statement) :
    (statements set s trees).scopes.depth = s.scopes.depth := depthComposes.statements s trees

theorem nativesModify (s : ScopeStack) {f : Scope → Scope} (same : ∀ scope, (f scope).natives = scope.natives) :
    (s.modifyCurrent f).global.natives = s.global.natives := by
  obtain ⟨policy, nested, global⟩ := s
  cases nested with
  | nil => exact same global
  | cons inner outer => rfl

theorem nativesComposes : Composes fun s t => t.scopes.global.natives = s.scopes.global.natives where
  refl _ := rfl
  trans first second := second.trans first
  note _ _ := rfl
  addStatement s _ := nativesModify s.scopes fun _ => rfl
  addVariable s v := by
    rw [State.addVariableScopes]
    exact nativesModify s.scopes fun _ => rfl
  block {s t} inside := by
    have opened : t.scopes.global.natives = s.scopes.global.natives := inside
    rw [← opened, State.closeBlock]
    cases popped : t.scopes.pop? with
    | some found =>
      rw [ScopeStack.popOk popped]
      exact nativesModify found.2 fun _ => rfl
    | none => rfl

structure SameTables (s t : Scope) : Prop where
  natives : t.natives = s.natives
  functions : t.functions = s.functions
  instructions : t.instructions = s.instructions
  modifiers : t.modifiers = s.modifiers

structure TablesOf (base s : ScopeStack) : Prop where
  policy : s.policy = base.policy
  global : SameTables base.global s.global
  nested : ∀ scope ∈ s.nested, SameTables (.empty base.policy) scope

theorem SameTables.trans {s t u : Scope} (first : SameTables s t) (second : SameTables t u) : SameTables s u :=
  ⟨second.natives.trans first.natives, second.functions.trans first.functions,
    second.instructions.trans first.instructions, second.modifiers.trans first.modifiers⟩

theorem addStatementTables (s : Scope) (st : Graph.Statement) : SameTables s (s.addStatement st) := ⟨rfl, rfl, rfl, rfl⟩

theorem TablesOf.modify {base s : ScopeStack} {f : Scope → Scope} (tables : TablesOf base s)
    (same : ∀ scope, SameTables scope (f scope)) : TablesOf base (s.modifyCurrent f) := by
  obtain ⟨policy, nested, global⟩ := s
  cases nested with
  | nil => exact ⟨tables.policy, tables.global.trans (same global), tables.nested⟩
  | cons inner outer =>
    obtain ⟨here, others⟩ := List.forall_mem_cons.mp tables.nested
    exact ⟨tables.policy, tables.global, List.forall_mem_cons.mpr ⟨here.trans (same inner), others⟩⟩

theorem TablesOf.step {base : ScopeStack} {s t : State} (tables : TablesOf base s.scopes) (step : Step set s t) :
    TablesOf base t.scopes := by
  cases step with
  | note => exact tables
  | @add st => exact tables.modify (addStatementTables · st)
  | declare =>
    rw [State.addVariableScopes]
    exact tables.modify fun _ => ⟨rfl, rfl, rfl, rfl⟩
  | openBlock =>
    refine ⟨tables.policy, tables.global, List.forall_mem_cons.mpr ⟨?_, tables.nested⟩⟩
    rw [tables.policy]
    exact ⟨rfl, rfl, rfl, rfl⟩
  | @closeBlock inner rest popped =>
    rw [ScopeStack.popOk popped] at tables
    have outside : TablesOf base rest := ⟨tables.policy, tables.global, (List.forall_mem_cons.mp tables.nested).2⟩
    exact outside.modify (addStatementTables · inner.block.toStatement)

theorem TablesOf.reached {base : ScopeStack} {s t : State} (tables : TablesOf base s.scopes)
    (reached : Reaches set s t) : TablesOf base t.scopes :=
  invariantReached (I := fun u => TablesOf base u.scopes) tables (fun _ held step => held.step step) reached

theorem TablesOf.resolveFunction {base s : ScopeStack} (tables : TablesOf base s) :
    s.resolveFunction = base.resolveFunction := by
  funext name args
  simp only [ScopeStack.resolveFunction, Scope.resolveFunction, Scope.evaluate, Scope.call, tables.global.natives,
    tables.global.functions]

theorem TablesOf.resolveModifier {base s : ScopeStack} (tables : TablesOf base s) :
    s.resolveModifier = base.resolveModifier := by
  funext name args
  simp only [ScopeStack.resolveModifier, tables.global.modifiers]

theorem TablesOf.resolveInstruction {base s : ScopeStack} (tables : TablesOf base s) {name : String}
    {args : List Value} {found : Instruction × List Value} (resolved : s.resolveInstruction name args = .ok found) :
    base.global.instructions.resolve name args = .ok found := by
  obtain ⟨scope, member, here⟩ := ScopeStack.resolvedInstruction resolved
  rcases List.mem_append.mp member with inner | outermost
  · rw [(tables.nested scope inner).instructions, Scope.empty, OverloadTable.resolveUnknown rfl] at here
    cases here
  · rwa [List.mem_singleton.mp outermost, tables.global.instructions] at here

end Runs

end Analysis

end Cqasm
