import Cqasm.Text.Quoted
import Cqasm.Value.Basic

/-! How values are written. -/
namespace Cqasm

open Number (floatText)

def boolText (b : Bool) : String := if b then "true" else "false"

def commaList (items : List String) : String := ", ".intercalate items

def braced (items : List String) : String := "\x7b" ++ commaList items ++ "\x7d"

def Constant.text : Constant → String
  | .bool b => boolText b
  | .int i => toString i.toInt
  | .float x => floatText x
  | .complex z => z.text
  | .axis x y z => "[" ++ commaList [floatText x, floatText y, floatText z] ++ "]"
  | .string text => Text.quoted text
  | .json text => text
  | .boolArray items => braced (items.map boolText)
  | .intArray items => braced (items.map fun i => toString i.toInt)
  | .floatArray items => braced (items.map floatText)
  | .realMatrix m => m.text floatText
  | .complexMatrix m => m.text Complex.text

mutual

def Value.text : Value → String
  | .const c => c.text
  | .reference id _ => "var#" ++ toString id
  | .selection s => "var#" ++ toString s.id ++ "[" ++ commaList (s.indices.map toString) ++ "]"
  | .call function arguments => function.name ++ "(" ++ commaList (Value.texts arguments) ++ ")"

def Value.texts : List Value → List String
  | [] => []
  | v :: vs => v.text :: Value.texts vs

end

end Cqasm
