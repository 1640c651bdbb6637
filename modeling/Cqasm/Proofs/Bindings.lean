import Cqasm.Proofs.Provenance

/-! Properties of values that hold relative to the variables there are and the variables in scope. Where names
are bound to such values at the start, and functions and selections keep them, every value of the analysed program
has the property at the place where it stands. -/
namespace Cqasm

open Cqasm.Graph (Variable)

theorem VariableTable.addFound {t : VariableTable} {name other : String} {v w : Value}
    (found : (t.add name v).find? other = some w) : w = v ∨ t.find? other = some w := by
  simp only [find?, add, Table.findInsert] at found
  split at found
  · exact .inl (Option.some.inj found).symm
  · exact .inr found

namespace Analysis

def Bindings (P : List Nat → Value → Prop) : List Scope → Prop
  | [] => True
  | scope :: outer =>
    (∀ name v, scope.vars.find? name = some v → P (visible (scope :: outer)) v) ∧ Bindings P outer

structure Rule (P : List Variable → List Nat → Value → Prop) (global : Scope) : Prop where
  mono {vars more : List Variable} {inner outer : List Nat} {v : Value} :
    vars <+: more → inner ⊆ outer → P vars inner v → P more outer v
  bound {name : String} {v : Value} : global.vars.find? name = some v → P [] [] v
  constant (vars : List Variable) (around : List Nat) (c : Constant) : P vars around (.const c)
  reference {vars : List Variable} {around : List Nat} {id : Nat} {v : Variable} :
    vars[id]? = some v → id ∈ around → P vars around (.reference id v.type)
  function {vars : List Variable} {around : List Nat} {name : String} {args : List Value} {v : Value} :
    (∀ a ∈ args, P vars around a) → global.resolveFunction name args = .ok v → P vars around v
  selection {vars : List Variable} {around : List Nat} {base : Value} {selection : Selection} {size : Int}
    {indices : List Int} :
    P vars around base → indexable base = .ok (selection, size) → (∀ i ∈ indices, 0 ≤ i ∧ i < size) →
      P vars around (.selection { selection with indices })

section Runs

variable {P : List Variable → List Nat → Value → Prop} {global : Scope} {set : InstructionSet} {s t : State}

theorem Bindings.mono {Q R : List Nat → Value → Prop} {scopes : List Scope} (holds : Bindings Q scopes)
    (step : ∀ {around v}, Q around v → R around v) : Bindings R scopes := by
  induction scopes with
  | nil => trivial
  | cons scope outer ih => exact ⟨fun name v found => step (holds.1 name v found), ih holds.2⟩

theorem Bindings.found {Q : List Nat → Value → Prop} {scopes : List Scope} {name : String} {v : Value}
    (holds : Bindings Q scopes) (wider : ∀ {inner outer v}, inner ⊆ outer → Q inner v → Q outer v)
    (found : (scopes.findSome? fun scope => scope.vars.find? name) = some v) : Q (visible scopes) v := by
  induction scopes with
  | nil => cases found
  | cons scope outer ih =>
    rw [List.findSome?_cons] at found
    cases here : scope.vars.find? name with
    | some w =>
      simp only [here, Option.some.injEq] at found
      exact found ▸ holds.1 name w here
    | none =>
      simp only [here] at found
      exact wider (List.subset_append_right _ _) (ih holds.2 found)

theorem Bindings.step (rule : Rule P global) (bindings : Bindings (P s.vars) s.stack) (step : Step set s t) :
    Bindings (P t.vars) t.stack := by
  rw [s.stackEq] at bindings
  cases step with
  | note => exact s.stackEq ▸ bindings
  | @add st =>
    rw [s.addStatementStack]
    exact ⟨bindings.1, bindings.2⟩
  | @declare d v =>
    have longer : s.vars <+: (s.addVariable v).vars := List.prefix_append _ _
    have wider : s.scopes.current.block.vars ++ visible s.scopes.outer ⊆
        (s.scopes.current.block.vars ++ [s.vars.length]) ++ visible s.scopes.outer := by
      rw [List.append_assoc]
      exact List.append_subset.mpr ⟨List.subset_append_left _ _,
        List.Subset.trans (List.subset_append_right _ _) (List.subset_append_right _ _)⟩
    rw [s.addVariableStack]
    refine ⟨fun name w found => ?_, bindings.2.mono fun here => rule.mono longer (List.Subset.refl _) here⟩
    rcases VariableTable.addFound found with rfl | old
    · refine rule.reference (List.getElem?_concat_length ..) ?_
      simp [visible, State.withVariable, Scope.addBlockVariable, Scope.addVariable, Graph.Block.addVariable]
    · exact rule.mono longer wider (bindings.1 name w old)
  | openBlock =>
    rw [← s.stackEq] at bindings
    exact ⟨fun name w found => (by cases found), bindings⟩
  | @closeBlock inner rest popped =>
    rw [← s.stackEq, State.popStack popped] at bindings
    obtain ⟨_, here, others⟩ := bindings
    rw [State.stack, rest.scopesAddStatement]
    exact ⟨here, others⟩

theorem Bindings.reached (rule : Rule P global) (bindings : Bindings (P s.vars) s.stack) (reached : Reaches set s t) :
    Bindings (P t.vars) t.stack :=
  invariantReached (I := fun u => Bindings (P u.vars) u.stack) bindings (fun _ held step => held.step rule step) reached

theorem madeKeeps {Q : Value → Prop} {scopes : ScopeStack} (closed : Closed Q scopes) {st : Graph.Statement}
    (made : Made set scopes st) : ∀ v ∈ st.values, Q v := by
  have operands {name : String} {args : List Value} {instruction : Instruction} {ws : List Value}
      (given : ∀ a ∈ args, Q a) (resolved : scopes.resolveInstruction name args = .ok (instruction, ws)) :
      ∀ w ∈ ws, Q w := by
    obtain ⟨scope, _, here⟩ := ScopeStack.resolvedInstruction resolved
    exact resolveOverloadKeeps closed.constant here given
  cases made with
  | gate origin =>
    simp only [Graph.Statement.values, Graph.GateInstruction.values, List.forall_mem_append]
    exact ⟨⟨gateKeeps closed origin.gate, operands (expressionsKeep closed _ origin.operands) origin.resolved⟩,
      annotationsKeep closed origin.annotations⟩
  | nonGate origin =>
    simp only [Graph.Statement.values, Graph.NonGateInstruction.values, List.forall_mem_append]
    exact ⟨⟨operands (expressionsKeep closed _ origin.operands) origin.resolved,
      resolveOptionalParameterKeeps closed.constant origin.parameter (optionalExpressionKeeps closed origin.analysed)⟩,
      annotationsKeep closed origin.annotations⟩
  | assign origin =>
    simp only [Graph.Statement.values, Graph.Assignment.values, List.forall_mem_cons]
    exact ⟨expressionKeeps closed _ origin.target,
      Value.promotedKeeps closed.constant origin.coerced (expressionKeeps closed _ origin.analysed),
      annotationsKeep closed origin.annotations⟩

end Runs

end Analysis

namespace Analyzer

open Analysis

variable {P : List Variable → List Nat → Value → Prop} {a : Analyzer} {p : Tree.Program}

theorem reachedClosed (rule : Rule P a.global) {t : State} (reached : Reaches a.instructionSet (a.start p) t) :
    Closed (P t.vars (visible t.stack)) t.scopes := by
  have initial : Bindings (P (a.start p).vars) (a.start p).stack :=
    ⟨fun name v found => rule.mono List.prefix_rfl (List.nil_subset _) (rule.bound found), trivial⟩
  have bindings := initial.reached rule reached
  refine ⟨rule.constant _ _, fun named => ?_, fun given resolved => ?_, rule.selection⟩
  · unfold ScopeStack.resolveVariable at named
    split at named
    case h_1 v found =>
      cases named
      exact bindings.found (rule.mono List.prefix_rfl) found
    case h_2 => cases named
  · rw [reachedFunction reached] at resolved
    exact rule.function given resolved

theorem statementValues (rule : Rule P a.global) (blank : a.global.block = .empty) {around : List Nat}
    {st : Graph.Statement} (has : (a.elaborate p).program.Has around st) :
    ∀ v ∈ st.values, P (a.elaborate p).program.vars around v := by
  intro v member
  cases keptStatement blank has with
  | made reached earlier inScope origin =>
    exact rule.mono earlier inScope (madeKeeps (reachedClosed rule reached) origin v member)
  | block => cases member

theorem variableValues (rule : Rule P a.global) {i : Nat} {v : Variable}
    (found : (a.elaborate p).program.vars[i]? = some v) :
    ∃ around, ∀ x ∈ annotationValues v.annotations, P ((a.elaborate p).program.vars.take i) around x := by
  obtain ⟨t, d, declared⟩ := programVariable found
  rw [← declared.before]
  exact ⟨_, annotationsKeep (reachedClosed rule declared.reached) declared.origin.annotations⟩

theorem annotationsHold (rule : Rule P a.global) {x : Variable} (member : x ∈ (a.elaborate p).program.vars) :
    ∃ around, ∀ v ∈ annotationValues x.annotations, P (a.elaborate p).program.vars around v := by
  obtain ⟨i, inside, rfl⟩ := List.mem_iff_getElem.mp member
  obtain ⟨around, holds⟩ := variableValues rule (List.getElem?_eq_getElem inside)
  exact ⟨around, fun v found => rule.mono (List.take_prefix _ _) (List.Subset.refl _) (holds v found)⟩

end Analyzer

end Cqasm
