/-! Matrices, stored row by row. -/
namespace Cqasm

/- The number of entries is a product of machine words and wraps with it: a matrix of `2 ^ 32` rows and as many columns
holds none. -/
structure Matrix (α : Type) where
  rows : Nat
  cols : Nat
  entries : List α
  lengthEq : entries.length = (UInt64.ofNat (rows * cols)).toNat
  deriving DecidableEq, Repr

namespace Matrix

def ofEntries? {α : Type} (rows cols : Nat) (entries : List α) : Option (Matrix α) :=
  if h : entries.length = (UInt64.ofNat (rows * cols)).toNat then some ⟨rows, cols, entries, h⟩ else none

def get? {α : Type} (m : Matrix α) (row col : Nat) : Option α :=
  if row < m.rows ∧ col < m.cols then m.entries[(UInt64.ofNat (row * m.cols + col)).toNat]? else none

def map {α β : Type} (f : α → β) (m : Matrix α) : Matrix β :=
  ⟨m.rows, m.cols, m.entries.map f, by rw [List.length_map, m.lengthEq]⟩

def rowsOf {α : Type} (cols : Nat) : List α → List (List α)
  | [] => []
  | entry :: rest => (entry :: rest.take (cols - 1)) :: rowsOf cols (rest.drop (cols - 1))
termination_by entries => entries.length
decreasing_by
  rw [List.length_drop, List.length_cons]
  omega

def text {α : Type} (entryText : α → String) (m : Matrix α) : String :=
  "[" ++ "; ".intercalate ((rowsOf m.cols m.entries).map fun row => ", ".intercalate (row.map entryText)) ++ "]"

end Matrix

end Cqasm
