import Cqasm.Number.Decimal

/-! Complex numbers with float parts. -/
namespace Cqasm

structure Complex where
  re : Float
  im : Float
  deriving DecidableEq, Repr

namespace Complex

def ofFloat (x : Float) : Complex := ⟨x, 0.0⟩

/-- A part without the sign of a negative number. A negative zero is no negative number and keeps its own. -/
def magnitudeText (x : Float) : String := Number.floatText (if x < 0.0 then 0.0 - x else x)

def text (z : Complex) : String :=
  (if z.re < 0.0 then "-" else "") ++ magnitudeText z.re ++
  (if z.im < 0.0 then "-" else "+") ++ magnitudeText z.im ++ "i"

end Complex

end Cqasm
