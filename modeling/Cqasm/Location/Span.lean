import Cqasm.Location.Basic

/-! Spans of characters: from lines and columns to offsets in the text. -/
namespace Cqasm

structure Span where
  start : Nat
  stop : Nat
  deriving DecidableEq, Repr

namespace Span

def lines : List Char → List (List Char)
  | [] => []
  | c :: rest =>
    if c = '\n' then [c] :: lines rest
    else match lines rest with
      | [] => [[c]]
      | line :: others => (c :: line) :: others

def lineBody (line : List Char) : List Char := line.filter (· ≠ '\n')

/-- The offset of a one-based line and column. A column past the end of the line stands for its end, a line
past the last one for the end of the text. -/
def offsetIn : List (List Char) → (line column : Nat) → Nat
  | [], _, _ => 0
  | first :: _, 0, column => min (column - 1) (lineBody first).length
  | first :: _, 1, column => min (column - 1) (lineBody first).length
  | first :: rest, line + 2, column => first.length + offsetIn rest (line + 1) column

def offset (source : List Char) (p : Position) : Nat := offsetIn (lines source) p.line p.column

def ofLocation (location : Option Location) (source : List Char) : Span :=
  match location with
  | none => ⟨0, 1⟩
  | some l =>
    if l.first.line = 0 then ⟨0, 1⟩
    else
      let start := min (offset source l.first) source.length
      ⟨start, max (offset source l.last + 1) (start + 1)⟩

end Span

end Cqasm
