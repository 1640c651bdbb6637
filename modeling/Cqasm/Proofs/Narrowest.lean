import Cqasm.Proofs.Coherence
import Cqasm.Proofs.FunctionResolution

/-! The first overload that takes the arguments is the narrowest that does, as long as narrow overloads are registered
before wide ones. The functions of the language are registered so. -/
namespace Cqasm

namespace Ty

def AllPromote (ss ts : List Ty) : Prop := List.Forall₂ (fun s t => s.promotesTo t = true) ss ts

instance (ss ts : List Ty) : Decidable (AllPromote ss ts) := inferInstanceAs (Decidable (List.Forall₂ _ ss ts))

theorem allPromoteRefl (ts : List Ty) : AllPromote ts ts := List.forall₂_same.mpr fun t _ => promotesRefl t

end Ty

section Order

variable {α : Type} {params : α → List Ty} {overloads : List α} {args : List Value}

def NarrowFirst (params : α → List Ty) (overloads : List α) : Prop :=
  overloads.Pairwise fun o p => (params o).length = (params p).length → Ty.AllPromote (params o) (params p)

theorem firstNarrowest (ordered : NarrowFirst params overloads) {o p : α}
    (first : overloads.find? (fun o => decide (Value.AllPromote args (params o))) = some o) (member : p ∈ overloads)
    (takes : Value.AllPromote args (params p)) : Ty.AllPromote (params o) (params p) := by
  obtain ⟨chosen, before, after, rfl, refused⟩ := List.find?_eq_some_iff_append.mp first
  rcases List.mem_append.mp member with earlier | here
  · have refuses := refused p earlier
    simp [takes] at refuses
  · rcases List.mem_cons.mp here with same | later
    · subst same
      exact Ty.allPromoteRefl (params p)
    · have fits : Value.AllPromote args (params o) := of_decide_eq_true chosen
      have lengths : (params o).length = (params p).length := fits.length_eq.symm.trans takes.length_eq
      exact (List.pairwise_cons.mp (List.pairwise_append.mp ordered).2.1).1 p later lengths

end Order

namespace Builtin

theorem allNarrowFirst : all.Pairwise fun b d =>
    b.name = d.name → b.params.length = d.params.length → Ty.AllPromote b.params d.params := by
  decide +kernel

theorem keyOfName (policy : CasePolicy) : ∀ b ∈ all, policy.key b.name = b.name := by
  cases policy with
  | sensitive => exact fun b _ => rfl
  | insensitive => decide +kernel

theorem namedNarrowFirst (policy : CasePolicy) (name : String) : NarrowFirst params (named policy name) := by
  refine (allNarrowFirst.filter _).imp_of_mem ?_
  intro b d left right narrow
  obtain ⟨known, key⟩ := List.mem_filter.mp left
  obtain ⟨knownToo, keyToo⟩ := List.mem_filter.mp right
  have same : b.name = d.name := by
    rw [← keyOfName policy b known, ← keyOfName policy d knownToo, of_decide_eq_true key, of_decide_eq_true keyToo]
  exact narrow same

theorem selectedSome {policy : CasePolicy} {name : String} {args : List Value} :
    (∃ b, selected? policy name args = some b) ↔ ∃ d ∈ named policy name, Value.AllPromote args d.params := by
  rw [← Option.isSome_iff_exists, selected?, List.find?_isSome]
  simp

theorem languageHasBuiltins (policy : CasePolicy) : (Analyzer.addBuiltins (.empty policy)).HasBuiltins policy := by
  rw [Analyzer.addBuiltinsEq]
  exact ⟨rfl, rfl⟩

theorem firstMatchNarrowest (policy : CasePolicy) (name : String) (args : List Value)
    (taken : ∃ d ∈ named policy name, ∃ ws, Value.promoteAll args d.params = some ws) :
    ∃ b ∈ named policy name, ∃ ws,
      (Analyzer.addBuiltins (.empty policy)).natives.resolve name args = .ok (b.native, ws) ∧
      (Analyzer.addBuiltins (.empty policy)).functions.resolve name args = .ok (b.runtime, ws) ∧
      ∀ d ∈ named policy name, (∃ xs, Value.promoteAll args d.params = some xs) →
        List.Forall₂ (fun s t => s.promotesTo t = true) b.params d.params := by
  simp only [Value.promoteAllSome] at taken ⊢
  obtain ⟨b, selected⟩ := selectedSome.mpr taken
  obtain ⟨ws, promoted⟩ := selectedPromotes selected
  obtain ⟨natives, functions⟩ := languageHasBuiltins policy
  refine ⟨b, (selectedMem selected).1, ws, ?_, ?_, ?_⟩
  · rw [natives, tableResolve selected promoted]
  · rw [functions, tableResolve selected promoted]
  · intro d member takes
    exact firstNarrowest (namedNarrowFirst policy name) selected member takes

def truthOverCount : List Value := [.const (.bool true), .reference 0 ⟨.scalar .int, true⟩]

theorem truthDividedAsInteger :
    (∃ d ∈ named .sensitive "operator/", ∃ ws, Value.promoteAll truthOverCount d.params = some ws) ∧
      ∃ b ∈ named .sensitive "operator/", ∃ ws,
        (Analyzer.addBuiltins (.empty .sensitive)).functions.resolve "operator/" truthOverCount = .ok (b.runtime, ws) ∧
          ∀ d ∈ named .sensitive "operator/", (∃ xs, Value.promoteAll truthOverCount d.params = some xs) →
            List.Forall₂ (fun s t => s.promotesTo t = true) b.params d.params := by
  have selected : selected? .sensitive "operator/" truthOverCount = some (binary "operator/" divide) := rfl
  have taken : ∃ d ∈ named .sensitive "operator/", ∃ ws, Value.promoteAll truthOverCount d.params = some ws :=
    ⟨_, (selectedMem selected).1, selectedPromotes selected⟩
  obtain ⟨b, member, ws, _, called, narrowest⟩ := firstMatchNarrowest .sensitive "operator/" truthOverCount taken
  exact ⟨taken, b, member, ws, called, narrowest⟩

end Builtin

end Cqasm
