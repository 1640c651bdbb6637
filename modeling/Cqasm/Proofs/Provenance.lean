import Cqasm.Proofs.Run

/-! Where the parts of an analysed program come from. A statement of the program was made at a state of the run
that saw no other variables than those in scope of the statement, a block was open at some state of the run, and
a variable was declared at a state that knew exactly the variables before it. -/
namespace Cqasm

open Cqasm.Graph (Variable)
open Cqasm.Graph.Statement (Everywhere everywhereBlock everywhereGate everywhereNonGate everywhereAssign)

namespace Analysis

def visible (scopes : List Scope) : List Nat := scopes.flatMap (·.block.vars)

inductive Kept (set : InstructionSet) (start : State) (vars : List Variable) (around : List Nat) :
    Graph.Statement → Prop where
  | made {t st} (reached : Reaches set start t) (earlier : t.vars <+: vars) (inScope : visible t.stack ⊆ around)
      (origin : Made set t.scopes st) : Kept set start vars around st
  | block {t scope} (reached : Reaches set start t) (earlier : t.vars <+: vars) (current : scope ∈ t.stack) :
      Kept set start vars around scope.block.toStatement

structure DeclaredAt (set : InstructionSet) (start : State) (before : List Variable) (v : Variable) (t : State)
    (d : Tree.Declaration) : Prop where
  reached : Reaches set start t
  before : t.vars = before
  origin : VariableFrom t d v

section Everywhere

variable {Q : List Nat → Graph.Statement → Prop} {around : List Nat} {b : Graph.Block}

theorem everywhereAddStatement {st : Graph.Statement} (holds : Everywhere Q around b.toStatement)
    (added : Everywhere Q (b.vars ++ around) st) (whole : Q around (b.addStatement st).toStatement) :
    Everywhere Q around (b.addStatement st).toStatement := by
  refine everywhereBlock.mpr ⟨whole, fun member found => ?_⟩
  rcases List.mem_append.mp found with old | new
  · exact (everywhereBlock.mp holds).2 member old
  · rw [List.mem_singleton.mp new]
    exact added

theorem everywhereAddVariable {id : Nat} (holds : Everywhere Q around b.toStatement)
    (wider : ∀ {inner outer s}, inner ⊆ outer → Q inner s → Q outer s)
    (whole : Q around (b.addVariable id).toStatement) :
    Everywhere Q around (b.addVariable id).toStatement := by
  refine everywhereBlock.mpr ⟨whole, fun member found => ?_⟩
  refine ((everywhereBlock.mp holds).2 member found).mono ?_ wider
  exact List.append_subset.mpr ⟨List.Subset.trans (List.subset_append_left _ _) (List.subset_append_left _ _),
    List.subset_append_right _ _⟩

theorem everywhereMade {set : InstructionSet} {scopes : ScopeStack} {st : Graph.Statement} (made : Made set scopes st)
    (holds : Q around st) : Everywhere Q around st := by
  cases made with
  | gate => exact everywhereGate.mpr holds
  | nonGate => exact everywhereNonGate.mpr holds
  | assign => exact everywhereAssign.mpr holds

def Throughout (Q : List Nat → Graph.Statement → Prop) : List Scope → Prop
  | [] => True
  | scope :: outer => Everywhere Q (visible outer) scope.block.toStatement ∧ Throughout Q outer

theorem Throughout.mono {R : List Nat → Graph.Statement → Prop} {scopes : List Scope} (holds : Throughout Q scopes)
    (step : ∀ {around s}, Q around s → R around s) : Throughout R scopes := by
  induction scopes with
  | nil => trivial
  | cons scope outer ih => exact ⟨fun around s occurs => step (holds.1 around s occurs), ih holds.2⟩

end Everywhere

section Kept

variable {set : InstructionSet} {start s t : State}

theorem Kept.mono {vars more : List Variable} {inner outer : List Nat} {st : Graph.Statement}
    (kept : Kept set start vars inner st) (longer : vars <+: more) (wider : inner ⊆ outer) :
    Kept set start more outer st := by
  cases kept with
  | made reached earlier inScope origin =>
    exact .made reached (earlier.trans longer) (List.Subset.trans inScope wider) origin
  | block reached earlier current => exact .block reached (earlier.trans longer) current

theorem keptStep (kept : Throughout (Kept set start s.vars) s.stack) (reached : Reaches set start s)
    (step : Step set s t) : Throughout (Kept set start t.vars) t.stack := by
  -- every open block is kept because the state after the step has it open
  have next : Reaches set start t := reached.tail step
  rw [s.stackEq] at kept
  cases step with
  | note => exact s.stackEq ▸ kept
  | @add st origin =>
    have stack := s.addStatementStack st
    have self : Kept set start s.vars (visible s.stack) st := .made reached List.prefix_rfl (List.Subset.refl _) origin
    rw [s.stackEq] at self
    have whole : Kept set start s.vars (visible s.scopes.outer) (s.scopes.current.addStatement st).block.toStatement :=
      .block next List.prefix_rfl (by simp [stack])
    rw [stack]
    exact ⟨everywhereAddStatement kept.1 (everywhereMade origin self) whole, kept.2⟩
  | @declare d v origin =>
    have stack := s.addVariableStack v
    have longer : s.vars <+: (s.addVariable v).vars := List.prefix_append _ _
    have whole : Kept set start (s.addVariable v).vars (visible s.scopes.outer)
        (State.withVariable s.scopes.current s.vars.length v).block.toStatement :=
      .block next List.prefix_rfl (by simp [stack])
    have same := kept.mono fun here => here.mono longer (List.Subset.refl _)
    rw [stack]
    exact ⟨everywhereAddVariable same.1 (fun wider here => here.mono List.prefix_rfl wider) whole, same.2⟩
  | openBlock =>
    rw [← s.stackEq] at kept
    have whole : Kept set start s.vars (visible s.stack) (Scope.empty s.scopes.policy).block.toStatement :=
      .block next List.prefix_rfl (List.mem_cons_self)
    exact ⟨everywhereBlock.mpr ⟨whole, by simp [Scope.empty, Graph.Block.empty]⟩, kept⟩
  | @closeBlock inner rest popped =>
    have stack := rest.scopesAddStatement inner.block.toStatement
    rw [← s.stackEq, State.popStack popped] at kept
    obtain ⟨closed, outside, others⟩ := kept
    have whole : Kept set start s.vars (visible rest.outer)
        (rest.current.addStatement inner.block.toStatement).block.toStatement :=
      .block next List.prefix_rfl (by simp [State.stack, stack])
    rw [State.stack, stack]
    exact ⟨everywhereAddStatement outside closed whole, others⟩

theorem keptReached (kept : Throughout (Kept set start start.vars) start.stack) (reached : Reaches set start t) :
    Throughout (Kept set start t.vars) t.stack :=
  invariantReached (I := fun u => Throughout (Kept set start u.vars) u.stack) kept
    (fun before held step => keptStep held before step) reached

theorem varsStep (step : Step set s t) :
    t.vars = s.vars ∨ ∃ d v, t.vars = s.vars ++ [v] ∧ VariableFrom s d v := by
  cases step with
  | note | add | openBlock | closeBlock => exact .inl rfl
  | @declare d v origin => exact .inr ⟨d, v, rfl, origin⟩

theorem declaredStep (reached : Reaches set start s) (step : Step set s t)
    (declared : ∀ i v, s.vars[i]? = some v → ∃ u d, DeclaredAt set start (s.vars.take i) v u d) :
    ∀ i v, t.vars[i]? = some v → ∃ u d, DeclaredAt set start (t.vars.take i) v u d := by
  intro i v found
  rcases varsStep step with same | ⟨d, w, added, origin⟩
  · rw [same] at found ⊢
    exact declared i v found
  · rw [added] at found ⊢
    rcases Nat.lt_or_ge i s.vars.length with inside | past
    · rw [List.getElem?_append_left inside] at found
      rw [List.take_append_of_le_length (Nat.le_of_lt inside)]
      exact declared i v found
    · rw [List.getElem?_append_right past, List.getElem?_singleton] at found
      split at found
      case isTrue last =>
        cases found
        have here : i = s.vars.length := by omega
        rw [here, List.take_left]
        exact ⟨s, d, reached, rfl, origin⟩
      case isFalse => cases found

theorem declaredReached (none : start.vars = []) (reached : Reaches set start t) :
    ∀ i v, t.vars[i]? = some v → ∃ u d, DeclaredAt set start (t.vars.take i) v u d :=
  invariantReached (I := fun u => ∀ i v, u.vars[i]? = some v → ∃ x d, DeclaredAt set start (u.vars.take i) v x d)
    (fun i v found => by simp [none] at found) (fun before held step => declaredStep before step held) reached

end Kept

end Analysis

namespace Analyzer

open Analysis

def start (a : Analyzer) (p : Tree.Program) : State :=
  ⟨.ofGlobal a.global a.policy, [], versionDiagnostics a.apiVersion p⟩

def finish (a : Analyzer) (p : Tree.Program) : State := statements a.instructionSet (a.start p) p.statements

variable {a : Analyzer} {p : Tree.Program}

theorem reachesFinish : Reaches a.instructionSet (a.start p) (a.finish p) := statementsReach _ _

theorem finishStack : (a.finish p).stack = [(a.finish p).scopes.global] := by
  have depth : (a.finish p).scopes.depth = 0 := statementsDepth _ _
  rw [State.stack, ScopeStack.scopes, List.eq_nil_of_length_eq_zero depth]
  rfl

theorem startTables : TablesOf (.ofGlobal a.global a.policy) (a.start p).scopes :=
  ⟨rfl, ⟨rfl, rfl, rfl, rfl⟩, by simp [start, ScopeStack.ofGlobal]⟩

section Reached

variable {t : State} (reached : Reaches a.instructionSet (a.start p) t)
include reached

theorem reachedTables : TablesOf (.ofGlobal a.global a.policy) t.scopes := startTables.reached reached

theorem reachedFunction : t.scopes.resolveFunction = a.global.resolveFunction := (reachedTables reached).resolveFunction

theorem reachedModifier : t.scopes.resolveModifier = a.global.modifiers.resolve :=
  (reachedTables reached).resolveModifier

theorem reachedInstruction {name : String} {args : List Value} {found : Instruction × List Value}
    (resolved : t.scopes.resolveInstruction name args = .ok found) :
    a.global.instructions.resolve name args = .ok found := (reachedTables reached).resolveInstruction resolved

end Reached

theorem keptStatement (blank : a.global.block = .empty) {around : List Nat} {st : Graph.Statement}
    (has : (a.elaborate p).program.Has around st) :
    Kept a.instructionSet (a.start p) (a.elaborate p).program.vars around st := by
  have self : Kept a.instructionSet (a.start p) [] [] a.global.block.toStatement :=
    .block .refl List.prefix_rfl List.mem_cons_self
  have initial : Everywhere (Kept a.instructionSet (a.start p) []) [] a.global.block.toStatement := by
    rw [blank] at self ⊢
    exact everywhereBlock.mpr ⟨self, by simp [Graph.Block.empty]⟩
  have opened : Throughout (Kept a.instructionSet (a.start p) (a.start p).vars) (a.start p).stack := ⟨initial, trivial⟩
  have final := keptReached opened reachesFinish
  rw [finishStack] at final
  exact final.1 around st has

theorem programVariable {i : Nat} {v : Graph.Variable} (found : (a.elaborate p).program.vars[i]? = some v) :
    ∃ t d, DeclaredAt a.instructionSet (a.start p) ((a.elaborate p).program.vars.take i) v t d :=
  declaredReached rfl reachesFinish i v found

end Analyzer

end Cqasm
