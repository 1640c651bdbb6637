import Cqasm.Ty.Shorthand

/-! Descriptions of functions that are called at run time. -/
namespace Cqasm

structure RuntimeFunction where
  name : String
  params : List Ty
  result : Ty
  deriving DecidableEq, Repr

namespace RuntimeFunction

def ofCodes (name spec : String) (result : Char) : Except ShorthandError RuntimeFunction := do
  let params ← Ty.ofCodes spec
  let result ← Ty.ofCode result
  return ⟨name, params, result⟩

def text (f : RuntimeFunction) : String := f.name ++ "(" ++ typesText f.params ++ ") -> " ++ f.result.name

end RuntimeFunction

end Cqasm
