import Cqasm.Proofs.Blame

/-! What the analysis of statements can change. However deep their blocks and wherever they fail, statements extend the
innermost scope and leave everything else as it was. A statement that fails leaves the innermost scope alone too, but
for a declaration whose variable is there already when its initializer fails. -/
namespace Cqasm

open Cqasm.Graph (Variable)

namespace ScopeStack

theorem modifyUnchanged (s : ScopeStack) : (s.modifyCurrent fun scope => scope) = s := by
  obtain ⟨policy, nested, global⟩ := s
  cases nested <;> rfl

theorem policyModify (s : ScopeStack) (f : Scope → Scope) : (s.modifyCurrent f).policy = s.policy := by
  obtain ⟨policy, nested, global⟩ := s
  cases nested <;> rfl

end ScopeStack

namespace Scope

def extended (scope : Scope) (declared : List (Nat × Variable)) (ss : List Graph.Statement) : Scope :=
  { scope with
    vars := declared.foldl (fun table x => table.add x.2.name (.reference x.1 x.2.type)) scope.vars
    block :=
      { vars := scope.block.vars ++ declared.map Prod.fst
        statements := scope.block.statements ++ ss
        location := ss.foldl (fun covered st => Graph.Block.hull covered st.location) scope.block.location } }

variable (scope : Scope)

theorem extendedNone : scope.extended [] [] = scope := by simp [extended]

theorem extendedTwice (declared others : List (Nat × Variable)) (ss more : List Graph.Statement) :
    (scope.extended declared ss).extended others more = scope.extended (declared ++ others) (ss ++ more) := by
  simp [extended]

theorem extendedStatement (st : Graph.Statement) : scope.addStatement st = scope.extended [] [st] := by
  simp [extended, addStatement, Graph.Block.addStatement]

theorem extendedVariable (id : Nat) (v : Variable) :
    Analysis.State.withVariable scope id v = scope.extended [(id, v)] [] := by
  simp [extended, Analysis.State.withVariable, addVariable, addBlockVariable, Graph.Block.addVariable]

theorem extendedTables (declared : List (Nat × Variable)) (ss : List Graph.Statement) :
    Analysis.SameTables scope (scope.extended declared ss) := ⟨rfl, rfl, rfl, rfl⟩

end Scope

namespace Analysis

structure Extends (s t : State) (declared : List (Nat × Variable)) (ss : List Graph.Statement) : Prop where
  scopes : t.scopes = s.scopes.modifyCurrent (·.extended declared ss)
  vars : s.vars <+: t.vars
  fresh : ∀ x ∈ declared, s.vars.length ≤ x.1 ∧ t.vars[x.1]? = some x.2
  diagnostics : s.diagnostics <+: t.diagnostics

section Extends

variable {s t u : State} {declared others : List (Nat × Variable)} {ss more : List Graph.Statement}

theorem Extends.none (s : State) : Extends s s [] [] where
  scopes := by simp only [Scope.extendedNone, ScopeStack.modifyUnchanged]
  vars := List.prefix_rfl
  fresh := by simp
  diagnostics := List.prefix_rfl

theorem Extends.trans (first : Extends s t declared ss) (second : Extends t u others more) :
    Extends s u (declared ++ others) (ss ++ more) where
  scopes := by
    rw [second.scopes, first.scopes, ScopeStack.modifyModify]
    simp only [Scope.extendedTwice]
  vars := first.vars.trans second.vars
  fresh := by
    intro x member
    rcases List.mem_append.mp member with earlier | later
    · obtain ⟨new, found⟩ := first.fresh x earlier
      exact ⟨new, foundLater second.vars found⟩
    · obtain ⟨new, found⟩ := second.fresh x later
      exact ⟨Nat.le_trans first.vars.length_le new, found⟩
  diagnostics := first.diagnostics.trans second.diagnostics

theorem Extends.note (s : State) (ds : List Diagnostic) : Extends s (s.note ds) [] [] where
  scopes := (Extends.none s).scopes
  vars := List.prefix_rfl
  fresh := by simp
  diagnostics := List.prefix_append _ _

theorem Extends.statement (s : State) (st : Graph.Statement) : Extends s (s.addStatement st) [] [st] where
  scopes := by
    simp only [← Scope.extendedStatement]
    rfl
  vars := List.prefix_rfl
  fresh := by simp
  diagnostics := List.prefix_rfl

theorem Extends.variable (s : State) (v : Variable) : Extends s (s.addVariable v) [(s.vars.length, v)] [] where
  scopes := by
    simp only [← Scope.extendedVariable]
    exact s.addVariableScopes v
  vars := List.prefix_append _ _
  fresh := by simp [State.addVariable]
  diagnostics := List.prefix_rfl

theorem Extends.block (inside : Extends s.openBlock t declared ss) :
    Extends s t.closeBlock [] [((Scope.empty s.scopes.policy).extended declared ss).block.toStatement] := by
  have scopes : t.scopes =
      { s.scopes with nested := (Scope.empty s.scopes.policy).extended declared ss :: s.scopes.nested } := inside.scopes
  have closed : t.closeBlock = { t with
      scopes := s.scopes.addStatement ((Scope.empty s.scopes.policy).extended declared ss).block.toStatement } := by
    unfold State.closeBlock
    rw [scopes]
    rfl
  rw [closed]
  exact ⟨(Extends.statement s _).scopes, inside.vars, by simp, inside.diagnostics⟩

theorem extendsComposes : Composes fun s t => ∃ declared ss, Extends s t declared ss where
  refl s := ⟨_, _, .none s⟩
  trans := fun ⟨_, _, first⟩ ⟨_, _, second⟩ => ⟨_, _, first.trans second⟩
  note s ds := ⟨_, _, .note s ds⟩
  addStatement s st := ⟨_, _, .statement s st⟩
  addVariable s v := ⟨_, _, .variable s v⟩
  block := fun ⟨_, _, inside⟩ => ⟨_, _, inside.block⟩

end Extends

structure Confined (s t : State) : Prop where
  policy : t.scopes.policy = s.scopes.policy
  depth : t.scopes.depth = s.scopes.depth
  outer : t.scopes.outer = s.scopes.outer
  tables : List.Forall₂ SameTables s.stack t.stack
  blockVars : s.scopes.current.block.vars <+: t.scopes.current.block.vars
  blockStatements : s.scopes.current.block.statements <+: t.scopes.current.block.statements
  vars : s.vars <+: t.vars
  diagnostics : s.diagnostics <+: t.diagnostics
  -- the innermost scope has been extended, and nothing else has happened to it
  extended : ∃ declared ss, Extends s t declared ss

theorem Extends.confined {s t : State} {declared : List (Nat × Variable)} {ss : List Graph.Statement}
    (grown : Extends s t declared ss) : Confined s t := by
  have stack : t.stack = s.scopes.current.extended declared ss :: s.scopes.outer := by
    rw [State.stack, grown.scopes, ScopeStack.scopesModify]
  have current : t.scopes.current = s.scopes.current.extended declared ss := by
    rw [grown.scopes, ScopeStack.currentModify]
  constructor
  case policy => rw [grown.scopes, ScopeStack.policyModify]
  case depth => rw [grown.scopes, ScopeStack.depthModify]
  case outer =>
    have around : t.scopes.scopes = s.scopes.current.extended declared ss :: s.scopes.outer := stack
    rw [ScopeStack.outer, around, List.tail_cons]
  case tables =>
    rw [stack, s.stackEq]
    exact .cons (Scope.extendedTables _ _ _) (List.forall₂_same.mpr fun _ _ => ⟨rfl, rfl, rfl, rfl⟩)
  case blockVars =>
    rw [current]
    exact List.prefix_append _ _
  case blockStatements =>
    rw [current]
    exact List.prefix_append _ _
  case vars => exact grown.vars
  case diagnostics => exact grown.diagnostics
  case extended => exact ⟨_, _, grown⟩

structure Untouched (s t : State) : Prop where
  scopes : t.scopes = s.scopes
  vars : t.vars = s.vars

inductive Failed (s : State) : Tree.Statement → State → Prop where
  | gate {i t} (same : Untouched s t) : Failed s (.gate i) t
  | nonGate {i t} (same : Untouched s t) : Failed s (.nonGate i) t
  | assign {a t} (same : Untouched s t) : Failed s (.assign a) t
  | variable {d t found} (refused : (declaredVariable s d).result = .error found) (same : Untouched s t) :
      Failed s (.declare d) t
  | initializer {d t v value found} (declared : (declaredVariable s d).result = .ok v)
      (given : d.initializer = some value)
      (refused : (assignTo (s.addVariable v).scopes (.reference s.vars.length v.type) value [] d.location).result =
        .error found)
      (scopes : t.scopes = s.scopes.modifyCurrent (·.extended [(s.vars.length, v)] []))
      (vars : t.vars = s.vars ++ [v]) :
      Failed s (.declare d) t

section Failures

variable {α : Type}

theorem outcomeFailed {x : Outcome α} {location : Option Location} {d : Diagnostic}
    (stopped : x.failure location = some d) : ∃ found, x.result = .error found := by
  unfold Outcome.failure at stopped
  split at stopped
  case h_1 => cases stopped
  case h_2 found failed => exact ⟨found, failed⟩

theorem commitFailed (s : State) (location : Option Location) {x : Outcome α} {found : Diagnostic}
    (failed : x.result = .error found) (make : α → Graph.Statement) :
    Untouched s (s.commit location (x.map make)) := by
  obtain ⟨noted, result⟩ := x
  cases failed
  exact ⟨rfl, rfl⟩

theorem declareFailed {s : State} {d : Tree.Declaration} {reported : Diagnostic}
    (stopped : declareFailure s d = some reported) : Failed s (.declare d) (declare s d) := by
  unfold declareFailure at stopped
  cases result : (declaredVariable s d).result with
  | error found =>
    refine .variable result ?_
    rw [declare, result]
    exact ⟨rfl, rfl⟩
  | ok v =>
    simp only [result, initialFailure] at stopped
    cases given : d.initializer with
    | none => simp [given] at stopped
    | some value =>
      rw [given] at stopped
      obtain ⟨found, refused⟩ := outcomeFailed stopped
      have same := commitFailed ((s.note (declaredVariable s d).noted).addVariable v) d.location refused .assign
      have last : declare s d = ((s.note (declaredVariable s d).noted).addVariable v).commit d.location
          ((assignTo (s.addVariable v).scopes (.reference s.vars.length v.type) value [] d.location).map .assign) := by
        rw [declare, result]
        simp only [assignInitial, given]
        rfl
      rw [last]
      exact .initializer result given refused (same.scopes.trans (Extends.variable s v).scopes) same.vars

theorem statementFailed {set : InstructionSet} {s : State} {tree : Tree.Statement} {reported : Diagnostic}
    (stopped : failure set s tree = some reported) : Failed s tree (statement set s tree) := by
  cases tree with
  | declare d => exact declareFailed stopped
  | gate i =>
    obtain ⟨found, failed⟩ := outcomeFailed stopped
    exact .gate (commitFailed s i.location failed .gate)
  | nonGate i =>
    obtain ⟨found, failed⟩ := outcomeFailed stopped
    exact .nonGate (commitFailed s i.location failed .nonGate)
  | assign a =>
    obtain ⟨found, failed⟩ := outcomeFailed stopped
    exact .assign (commitFailed s a.location failed .assign)
  | block => cases stopped

end Failures

theorem statementsConfined (set : InstructionSet) (s : State) :
    (∀ trees, Confined s (statements set s trees)) ∧
      ∀ tree reported, failure set s tree = some reported → Failed s tree (statement set s tree) := by
  refine ⟨fun trees => ?_, fun tree reported stopped => statementFailed stopped⟩
  obtain ⟨declared, ss, grown⟩ := extendsComposes.statements s trees
  exact grown.confined

end Analysis

end Cqasm
