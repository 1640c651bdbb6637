/-! Finite maps from keys to data that keep the order of insertion. Data put under a key that is already
there takes the old place. -/
namespace Cqasm

structure Table (α : Type) where
  entries : List (String × α)
  deriving DecidableEq, Repr

namespace Table

def empty {α : Type} : Table α := ⟨[]⟩

def find? {α : Type} (t : Table α) (key : String) : Option α := t.entries.lookup key

def contains {α : Type} (t : Table α) (key : String) : Bool := (t.find? key).isSome

def values {α : Type} (t : Table α) : List α := t.entries.map Prod.snd

def size {α : Type} (t : Table α) : Nat := t.entries.length

def alterEntries {α : Type} (key : String) (change : Option α → α) : List (String × α) → List (String × α)
  | [] => [(key, change none)]
  | (k, a) :: rest =>
    if key = k then (k, change (some a)) :: rest else (k, a) :: alterEntries key change rest

def alter {α : Type} (t : Table α) (key : String) (change : Option α → α) : Table α :=
  ⟨alterEntries key change t.entries⟩

def insert {α : Type} (t : Table α) (key : String) (a : α) : Table α := t.alter key fun _ => a

theorem findAlter {α : Type} (t : Table α) (key other : String) (change : Option α → α) :
    (t.alter key change).find? other = if other = key then some (change (t.find? key)) else t.find? other := by
  obtain ⟨entries⟩ := t
  simp only [find?, alter]
  induction entries with
  | nil =>
    by_cases h : other = key
    · simp [alterEntries, h]
    · have off : (other == key) = false := by simpa using h
      simp [alterEntries, List.lookup_cons, h, off]
  | cons head rest ih =>
    obtain ⟨k, a⟩ := head
    by_cases hk : key = k
    · subst hk
      by_cases h : other = key
      · subst h; simp [alterEntries]
      · have off : (other == key) = false := by simpa using h
        simp [alterEntries, List.lookup_cons, h, off]
    · by_cases ho : other = k
      · subst ho
        have ne : other ≠ key := fun e => hk e.symm
        simp [alterEntries, hk, ne]
      · have off : (other == k) = false := by simpa using ho
        have offKey : (key == k) = false := by simpa using hk
        simp only [alterEntries, hk, if_false, List.lookup_cons, off, offKey]
        exact ih

theorem findInsert {α : Type} (t : Table α) (key other : String) (a : α) :
    (t.insert key a).find? other = if other = key then some a else t.find? other :=
  findAlter t key other fun _ => a

end Table

end Cqasm
