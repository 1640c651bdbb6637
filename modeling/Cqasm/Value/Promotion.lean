import Cqasm.Number.Integer
import Cqasm.Ty.Promotion
import Cqasm.Value.Basic

/-! Promotion of values. A constant is converted; any other value is only checked, because it cannot be
converted before run time. -/
namespace Cqasm

open Number (floatOfInt intOfBool floatOfBool ofLength)

def Constant.convert : Constant → Shape → Option Constant
  | .bool b, .scalar .int => some (.int (intOfBool b))
  | .bool b, .scalar .float => some (.float (floatOfBool b))
  | .bool b, .scalar .complex => some (.complex (.ofFloat (floatOfBool b)))
  | .int i, .scalar .float => some (.float (floatOfInt i))
  | .int i, .scalar .complex => some (.complex (.ofFloat (floatOfInt i)))
  | .float x, .scalar .complex => some (.complex (.ofFloat x))
  | .boolArray items, .array .int n =>
    if sizeAccepts n items.length then some (.intArray (items.map intOfBool)) else none
  | .boolArray items, .array .float n =>
    if sizeAccepts n items.length then some (.floatArray (items.map floatOfBool)) else none
  | .intArray items, .array .float n =>
    if sizeAccepts n items.length then some (.floatArray (items.map floatOfInt)) else none
  | .boolArray [a, b, c], .scalar .axis => some (.axis (floatOfBool a) (floatOfBool b) (floatOfBool c))
  | .intArray [a, b, c], .scalar .axis => some (.axis (floatOfInt a) (floatOfInt b) (floatOfInt c))
  | .floatArray [a, b, c], .scalar .axis => some (.axis a b c)
  | .realMatrix m, .matrix .complex r c =>
    if sizeAccepts r (ofLength m.rows) && sizeAccepts c (ofLength m.cols) then some (.complexMatrix (m.map .ofFloat))
    else none
  | _, _ => none

namespace Value

def promote (v : Value) (t : Ty) : Option Value :=
  if t.accepts v.type then some v
  else match v with
    | .const c => if t.assignable then none else (c.convert t.shape).map .const
    | _ => if v.type.promotesTo t then some v else none

def promoteAll : List Value → List Ty → Option (List Value)
  | [], [] => some []
  | v :: vs, t :: ts => do
    let first ← v.promote t
    let rest ← promoteAll vs ts
    return first :: rest
  | _, _ => none

end Value

end Cqasm
