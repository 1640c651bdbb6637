import Cqasm.Fault
import Cqasm.Number.Integer

/-! Arithmetic on 64-bit integers: the exact result, or a fault where it is not defined or out of range. -/
namespace Cqasm.Builtin

open Number (int64?)

def inRange (operation : String) (n : Int) : Except Fault Int64 :=
  match int64? n with
  | some i => .ok i
  | none => .error (.overflow operation)

def negate (a : Int64) : Except Fault Int64 := inRange "-" (-a.toInt)

def absolute (a : Int64) : Except Fault Int64 := inRange "abs" a.toInt.natAbs

def add (a b : Int64) : Except Fault Int64 := inRange "+" (a.toInt + b.toInt)

def subtract (a b : Int64) : Except Fault Int64 := inRange "-" (a.toInt - b.toInt)

def multiply (a b : Int64) : Except Fault Int64 := inRange "*" (a.toInt * b.toInt)

def divide (a b : Int64) : Except Fault Int64 :=
  if b = 0 then .error .divisionByZero else inRange "/" (a.toInt.fdiv b.toInt)

/-- The remainder has the sign of the divisor. It is refused where the quotient is out of range. -/
def remainder (a b : Int64) : Except Fault Int64 :=
  if b = 0 then .error .divisionByZero
  else if a = Int64.minValue ∧ b = -1 then .error (.overflow "%")
  else inRange "%" (a.toInt.fmod b.toInt)

def shiftBy (b : Int64) (shift : Int64 → Int64) : Except Fault Int64 :=
  if 0 ≤ b ∧ b < 64 then .ok (shift b) else .error (.shiftAmount b)

def shiftLeft (a b : Int64) : Except Fault Int64 := shiftBy b (a <<< ·)

def shiftRight (a b : Int64) : Except Fault Int64 := shiftBy b (a >>> ·)

end Cqasm.Builtin
