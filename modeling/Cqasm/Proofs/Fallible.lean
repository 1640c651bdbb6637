import Mathlib.Data.List.Forall2
import Cqasm.Analysis.Expression
import Cqasm.Analysis.Outcome

/-! How a computation that can fail came to its result: a success of a sequence is a success of every part, and its
failure is that of the first part that fails. -/
namespace Cqasm

theorem relatedEach {α β : Type} {R : α → β → Prop} {xs : List α} :
    (∃ ys, List.Forall₂ R xs ys) ↔ ∀ x ∈ xs, ∃ y, R x y := by
  induction xs with
  | nil => simp
  | cons x xs ih =>
    simp only [List.forall_mem_cons, ← ih, List.forall₂_cons_left_iff]
    constructor
    · rintro ⟨_, y, ys, here, others, rfl⟩
      exact ⟨⟨y, here⟩, ys, others⟩
    · rintro ⟨⟨y, here⟩, ys, others⟩
      exact ⟨y :: ys, y, ys, here, others, rfl⟩

section Except

variable {ε α β : Type}

theorem bindOk {x : Except ε α} {f : α → Except ε β} {b : β} :
    (x >>= f) = .ok b ↔ ∃ a, x = .ok a ∧ f a = .ok b := by
  cases x with
  | error e => simp [bind, Except.bind]
  | ok a => simp [bind, Except.bind]

theorem bindError {x : Except ε α} {f : α → Except ε β} {e : ε} :
    (x >>= f) = .error e ↔ x = .error e ∨ ∃ a, x = .ok a ∧ f a = .error e := by
  cases x with
  | error e => simp [bind, Except.bind]
  | ok a => simp [bind, Except.bind]

theorem pureOk {a b : α} : (pure a : Except ε α) = .ok b ↔ a = b := by simp [pure, Except.pure]

theorem mapOk {x : Except ε α} {f : α → β} {b : β} : x.map f = .ok b ↔ ∃ a, x = .ok a ∧ f a = b := by
  cases x <;> simp [Except.map]

variable {f : α → Except ε β} {xs : List α} {ys : List β}

theorem mapMConsOk {x : α} :
    (x :: xs).mapM f = .ok ys ↔ ∃ y, f x = .ok y ∧ ∃ rest, xs.mapM f = .ok rest ∧ y :: rest = ys := by
  simp only [List.mapM_cons, bindOk, pureOk]

theorem mapMOk (each : ∀ x ∈ xs, ∃ y, f x = .ok y) : ∃ ys, xs.mapM f = .ok ys := by
  induction xs with
  | nil => exact ⟨[], rfl⟩
  | cons x xs ih =>
    obtain ⟨⟨y, first⟩, others⟩ := List.forall_mem_cons.mp each
    obtain ⟨rest, all⟩ := ih others
    exact ⟨y :: rest, mapMConsOk.mpr ⟨y, first, rest, all, rfl⟩⟩

theorem mapMEach (all : xs.mapM f = .ok ys) : ∀ x ∈ xs, ∃ y, f x = .ok y := by
  induction xs generalizing ys with
  | nil => simp
  | cons x xs ih =>
    obtain ⟨y, first, rest, others, _⟩ := mapMConsOk.mp all
    exact List.forall_mem_cons.mpr ⟨⟨y, first⟩, ih others⟩

theorem memMapM (all : xs.mapM f = .ok ys) {y : β} : y ∈ ys ↔ ∃ x ∈ xs, f x = .ok y := by
  induction xs generalizing ys with
  | nil =>
    cases pureOk.mp all
    simp
  | cons x xs ih =>
    obtain ⟨first, here, rest, there, rfl⟩ := mapMConsOk.mp all
    have head : y = first ↔ f x = .ok y := by rw [here, Except.ok.injEq, eq_comm]
    simp [ih there, head]

end Except

namespace Analysis

variable {α β : Type}

theorem unplacedOk {r : Except Fault α} {a : α} : unplaced r = .ok a ↔ r = .ok a := by
  cases r with
  | ok b =>
    change Except.ok b = Except.ok a ↔ _
    rw [Except.ok.injEq, Except.ok.injEq]
  | error fault => exact ⟨nofun, nofun⟩

theorem placedOk {location : Option Location} {r : Except Diagnostic α} {a : α} :
    placed location r = .ok a ↔ r = .ok a := by
  cases r with
  | ok b => exact Iff.rfl
  | error d => exact ⟨nofun, nofun⟩

theorem unplacedError {r : Except Fault α} {d : Diagnostic} :
    unplaced r = .error d ↔ ∃ fault, r = .error fault ∧ d = ⟨fault, fault.place⟩ := by
  cases r with
  | ok a =>
    constructor
    · intro failed
      cases failed
    · intro failure
      obtain ⟨fault, failed, _⟩ := failure
      cases failed
  | error fault =>
    change Except.error _ = Except.error d ↔ _
    simp [eq_comm]

theorem placedError {location : Option Location} {r : Except Diagnostic α} {d : Diagnostic} :
    placed location r = .error d ↔ ∃ own, r = .error own ∧ d = own.within location := by
  cases r with
  | ok a =>
    constructor
    · intro failed
      cases failed
    · intro failure
      obtain ⟨own, failed, _⟩ := failure
      cases failed
  | error own =>
    change Except.error _ = Except.error d ↔ _
    simp [eq_comm]

namespace Outcome

@[simp] theorem resultOfExcept (r : Except Diagnostic α) : (ofExcept r).result = r := rfl

theorem resultPure {a b : α} : (pure a : Outcome α).result = .ok b ↔ a = b := by
  change Except.ok a = .ok b ↔ a = b
  simp

theorem resultBind {x : Outcome α} {f : α → Outcome β} {b : β} :
    (x >>= f).result = .ok b ↔ ∃ a, x.result = .ok a ∧ (f a).result = .ok b := by
  obtain ⟨noted, result⟩ := x
  change (Outcome.bind ⟨noted, result⟩ f).result = .ok b ↔ _
  cases result <;> simp [Outcome.bind]

theorem resultMap {x : Outcome α} {f : α → β} {b : β} :
    (x.map f).result = .ok b ↔ ∃ a, x.result = .ok a ∧ f a = b := by
  obtain ⟨noted, result⟩ := x
  cases result <;> simp [Outcome.map, Outcome.bind, Outcome.ok]

end Outcome

end Analysis

end Cqasm
