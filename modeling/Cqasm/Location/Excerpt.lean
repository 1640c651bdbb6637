import Cqasm.Location.Span

/-! Messages shown with the source line they are about, the span underlined from its middle on. -/
namespace Cqasm

structure Excerpt where
  message : String
  file : String
  lineNumber : Nat
  line : String
  start : Nat
  stop : Nat
  deriving DecidableEq, Repr

namespace Excerpt

def lineAt : (number before : Nat) → List (List Char) → (offset : Nat) → Nat × List Char × Nat
  | number, before, [], _ => (number, [], before)
  | number, before, [line], _ => (number, Span.lineBody line, before)
  | number, before, line :: next :: rest, offset =>
    if offset < line.length then (number, Span.lineBody line, before)
    else lineAt (number + 1) (before + line.length) (next :: rest) (offset - line.length)

def ofSpan (message file : String) (source : List Char) (span : Span) : Excerpt :=
  let (number, line, before) := lineAt 1 0 (Span.lines source) span.start
  ⟨message, file, number, String.ofList line, span.start - before, span.stop - before⟩

def spaces (n : Nat) : String := String.ofList (List.replicate n ' ')

def text (e : Excerpt) : String :=
  let number := toString e.lineNumber
  let margin := spaces (number.length + 2)
  let middle := (e.start + e.stop) / 2
  "Error: " ++ e.message ++ "\n" ++
  margin ++ "╭─[ " ++ e.file ++ ":" ++ number ++ ":" ++ toString (e.start + 1) ++ " ]\n" ++
  " " ++ number ++ " │" ++ e.line ++ "\n" ++
  margin ++ "│" ++ spaces middle ++ "╰" ++ String.ofList (List.replicate (e.stop - middle) '─') ++
    " Near this point\n"

end Excerpt

end Cqasm
