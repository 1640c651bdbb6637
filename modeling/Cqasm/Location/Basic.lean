/-! Places in a source text: one-based lines and columns, where zero means "not known", and inclusive ranges
of them. -/
namespace Cqasm

structure Position where
  line : Nat
  column : Nat
  deriving DecidableEq, Repr

namespace Position

def Before (a b : Position) : Prop := a.line < b.line ∨ a.line = b.line ∧ a.column < b.column

instance (a b : Position) : Decidable (a.Before b) := inferInstanceAs (Decidable (_ ∨ _))

def earlier (a b : Position) : Position := if b.Before a then b else a

def later (a b : Position) : Position := if a.Before b then b else a

end Position

structure Location where
  file : Option String
  first : Position
  last : Position
  deriving DecidableEq, Repr

namespace Location

def unknown : Location := ⟨none, ⟨0, 0⟩, ⟨0, 0⟩⟩

def including (l : Location) (p : Position) : Location :=
  { l with first := l.first.earlier p, last := l.last.later p }

def covering (l other : Location) : Location := (l.including other.first).including other.last

def text (l : Location) : String :=
  let file := l.file.getD "<unknown>"
  if l.first.line = 0 then file
  else
    let line := file ++ ":" ++ toString l.first.line
    if l.first.column = 0 then
      if l.first.line < l.last.line then line ++ ".." ++ toString l.last.line else line
    else
      let column := line ++ ":" ++ toString l.first.column
      if l.last.line = l.first.line then
        if l.first.column < l.last.column then column ++ ".." ++ toString l.last.column else column
      else if l.first.line < l.last.line then
        column ++ ".." ++ toString l.last.line ++ ":" ++ toString l.last.column
      else column

end Location

end Cqasm
