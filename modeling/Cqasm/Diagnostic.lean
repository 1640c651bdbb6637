import Cqasm.Fault
import Cqasm.Location.Basic

/-! Faults with the place they were found at. -/
namespace Cqasm

structure Diagnostic where
  fault : Fault
  location : Option Location
  deriving DecidableEq, Repr

namespace Diagnostic

/-- The innermost place wins: a location once given is kept. -/
def within (d : Diagnostic) (location : Option Location) : Diagnostic :=
  { d with location := d.location.or location }

def text (d : Diagnostic) : String :=
  match d.location with
  | some location => "Error at " ++ location.text ++ ": " ++ d.fault.message
  | none => "Error: " ++ d.fault.message

end Diagnostic

end Cqasm
