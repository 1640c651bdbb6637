import Cqasm.Number.Integer
import Cqasm.Text.Blank
import Cqasm.Text.Numeral

/-! Dotted version numbers. -/
namespace Cqasm

structure Version where
  items : List Int64
  deriving DecidableEq, Repr

namespace Version

def pieces : List Char → List (List Char)
  | [] => [[]]
  | c :: rest =>
    if c = '.' then [] :: pieces rest
    else match pieces rest with
      | [] => [[c]]
      | piece :: others => (c :: piece) :: others

def item? (piece : List Char) : Option Int64 :=
  (Text.integer? (Text.trim piece)).bind Number.int64?

def items? : List (List Char) → Option (List Int64)
  | [] => some []
  | piece :: rest => (item? piece).bind fun item => (items? rest).map (item :: ·)

def parse? (text : String) : Option Version := (items? (pieces text.toList)).map Version.mk

def text (v : Version) : String := ".".intercalate (v.items.map fun item => toString item.toInt)

end Version

end Cqasm
