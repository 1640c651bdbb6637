import Cqasm.Diagnostic

/-! The outcome of analysing a construct: diagnostics noted on the way, and the result or the diagnostic that
stopped it. What was noted before a failure stays noted. -/
namespace Cqasm.Analysis

structure Outcome (α : Type) where
  noted : List Diagnostic
  result : Except Diagnostic α

namespace Outcome

def ok {α : Type} (a : α) : Outcome α := ⟨[], .ok a⟩

def ofExcept {α : Type} (r : Except Diagnostic α) : Outcome α := ⟨[], r⟩

def bind {α β : Type} (x : Outcome α) (f : α → Outcome β) : Outcome β :=
  match x.result with
  | .error d => ⟨x.noted, .error d⟩
  | .ok a => ⟨x.noted ++ (f a).noted, (f a).result⟩

instance : Monad Outcome where
  pure := ok
  bind := bind

def map {α β : Type} (f : α → β) (x : Outcome α) : Outcome β := x.bind fun a => ok (f a)

@[simp] theorem okBind {α β : Type} (a : α) (f : α → Outcome β) : (ok a).bind f = f a := by
  simp [ok, bind]

@[simp] theorem bindPure {α : Type} (x : Outcome α) : x.bind ok = x := by
  obtain ⟨noted, result⟩ := x
  cases result <;> simp [ok, bind]

theorem bindAssoc {α β γ : Type} (x : Outcome α) (f : α → Outcome β) (g : β → Outcome γ) :
    (x.bind f).bind g = x.bind fun a => (f a).bind g := by
  obtain ⟨noted, result⟩ := x
  cases result with
  | error d => rfl
  | ok a => cases h : (f a).result <;> simp [bind, h]

end Outcome

end Cqasm.Analysis
