import Cqasm.Proofs.Coherence
import Cqasm.Proofs.Overload

/-! Which overload is selected. Promoted arguments are taken by no overload that refused the arguments as they were
given, so resolving a second time selects the same overload and changes nothing. -/
namespace Cqasm

namespace Value

theorem promoteAllCons {v : Value} {vs : List Value} {t : Ty} {ts : List Ty} {ws : List Value} :
    promoteAll (v :: vs) (t :: ts) = some ws ↔
      ∃ w, v.promote t = some w ∧ ∃ rest, promoteAll vs ts = some rest ∧ w :: rest = ws := by
  simp only [promoteAll, Option.bind_eq_bind, Option.bind_eq_some_iff, Option.pure_def, Option.some.injEq]

theorem promotedAllAgain {vs ws : List Value} {ts : List Ty} (promoted : promoteAll vs ts = some ws) :
    promoteAll ws ts = some ws := by
  induction vs generalizing ts ws with
  | nil =>
    cases ts with
    | nil =>
      cases promoted
      rfl
    | cons => cases promoted
  | cons v vs ih =>
    cases ts with
    | nil => cases promoted
    | cons t ts =>
      obtain ⟨w, first, rest, others, rfl⟩ := promoteAllCons.mp promoted
      exact promoteAllCons.mpr ⟨w, promotedAgain first, rest, ih others, rfl⟩

theorem promotedAllTwice {vs ws xs : List Value} {ts us : List Ty} (first : promoteAll vs ts = some ws)
    (second : promoteAll ws us = some xs) : promoteAll vs us = some xs := by
  induction vs generalizing ts us ws xs with
  | nil =>
    cases ts with
    | nil =>
      cases first
      exact second
    | cons => cases first
  | cons v vs ih =>
    cases ts with
    | nil => cases first
    | cons t ts =>
      obtain ⟨w, head, rest, tail, rfl⟩ := promoteAllCons.mp first
      cases us with
      | nil => cases second
      | cons u us =>
        obtain ⟨x, headAgain, others, tailAgain, rfl⟩ := promoteAllCons.mp second
        exact promoteAllCons.mpr ⟨x, promotedTwice head headAgain, others, ih tail tailAgain, rfl⟩

end Value

namespace Overload

variable {α : Type}

/- The overload `o`, with `k` others before it that refuse the arguments, takes them as `ws`. -/
inductive Selects (args : List Value) : List (Overload α) → Nat → Overload α → List Value → Prop where
  | here {o rest ws} (promoted : o.promoted? args = some ws) : Selects args (o :: rest) 0 o ws
  | later {o rest k chosen ws} (refused : o.promoted? args = none) (next : Selects args rest k chosen ws) :
      Selects args (o :: rest) (k + 1) chosen ws

variable {overloads : List (Overload α)} {args ws : List Value} {k : Nat} {o : Overload α} {tag : α}

theorem Selects.place (selects : Selects args overloads k o ws) : overloads[k]? = some o := by
  induction selects with
  | here => rfl
  | later _ _ ih => exact ih

theorem Selects.promoted (selects : Selects args overloads k o ws) : o.promoted? args = some ws := by
  induction selects with
  | here promoted => exact promoted
  | later _ _ ih => exact ih

theorem firstMatchSelects :
    firstMatch? overloads args = some (tag, ws) ↔ ∃ k o, Selects args overloads k o ws ∧ o.tag = tag := by
  induction overloads with
  | nil =>
    constructor
    · intro found
      cases found
    · rintro ⟨_, _, selects, _⟩
      cases selects
  | cons first rest ih =>
    unfold firstMatch? at ih ⊢
    rw [List.findSome?_cons]
    cases promoted : first.promoted? args with
    | none =>
      rw [Option.map_none, ih]
      constructor
      · rintro ⟨k, o, selects, same⟩
        exact ⟨k + 1, o, .later promoted selects, same⟩
      · rintro ⟨_, o, selects, same⟩
        cases selects with
        | here taken => cases promoted.symm.trans taken
        | later _ next => exact ⟨_, o, next, same⟩
    | some vs =>
      rw [Option.map_some, Option.some.injEq, Prod.mk.injEq]
      constructor
      · rintro ⟨rfl, rfl⟩
        exact ⟨0, first, .here promoted, rfl⟩
      · rintro ⟨_, o, selects, rfl⟩
        cases selects with
        | here taken => exact ⟨rfl, Option.some.inj (promoted.symm.trans taken)⟩
        | later refused => cases refused.symm.trans promoted

theorem refusedAgain {other : Overload α} (promoted : o.promoted? args = some ws)
    (refused : other.promoted? args = none) :
    other.promoted? ws = none := by
  rw [Option.eq_none_iff_forall_ne_some] at refused ⊢
  intro xs taken
  exact refused xs (Value.promotedAllTwice promoted taken)

theorem Selects.again (selects : Selects args overloads k o ws) : Selects ws overloads k o ws := by
  induction selects with
  | here promoted => exact .here (Value.promotedAllAgain promoted)
  | later refused next ih => exact .later (refusedAgain next.promoted refused) ih

theorem resolutionIdempotent (resolved : firstMatch? overloads args = some (tag, ws)) :
    ∃ k o, overloads[k]? = some o ∧ o.tag = tag ∧ Selects args overloads k o ws ∧ Selects ws overloads k o ws ∧
      firstMatch? overloads ws = some (tag, ws) := by
  obtain ⟨k, o, selects, same⟩ := firstMatchSelects.mp resolved
  exact ⟨k, o, selects.place, same, selects, selects.again, firstMatchSelects.mpr ⟨k, o, selects.again, same⟩⟩

def arrayOverloads : List (Overload Nat) :=
  [⟨0, [.bool, ⟨.scalar .bit, true⟩]⟩, ⟨1, [⟨.array .int unconstrained, false⟩, ⟨.scalar .bit, true⟩]⟩,
    ⟨2, [⟨.array .int 2, false⟩, ⟨.scalar .bit, false⟩]⟩]

theorem arrayResolvedAgain :
    firstMatch? arrayOverloads [.const (.boolArray [true, false]), .reference 0 ⟨.scalar .bit, true⟩] =
        some (1, [.const (.intArray [1, 0]), .reference 0 ⟨.scalar .bit, true⟩]) ∧
      ∃ k o, arrayOverloads[k]? = some o ∧ o.tag = 1 ∧
        Selects [.const (.boolArray [true, false]), .reference 0 ⟨.scalar .bit, true⟩] arrayOverloads k o
          [.const (.intArray [1, 0]), .reference 0 ⟨.scalar .bit, true⟩] ∧
        Selects [.const (.intArray [1, 0]), .reference 0 ⟨.scalar .bit, true⟩] arrayOverloads k o
          [.const (.intArray [1, 0]), .reference 0 ⟨.scalar .bit, true⟩] ∧
        firstMatch? arrayOverloads [.const (.intArray [1, 0]), .reference 0 ⟨.scalar .bit, true⟩] =
          some (1, [.const (.intArray [1, 0]), .reference 0 ⟨.scalar .bit, true⟩]) :=
  have resolved : firstMatch? arrayOverloads [.const (.boolArray [true, false]), .reference 0 ⟨.scalar .bit, true⟩] =
      some (1, [.const (.intArray [1, 0]), .reference 0 ⟨.scalar .bit, true⟩]) := by rfl
  ⟨resolved, resolutionIdempotent resolved⟩

end Overload

end Cqasm
