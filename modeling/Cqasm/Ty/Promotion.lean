import Cqasm.Ty.Basic

/-! Which types stand in for which: a type accepts the types it covers, and promotion adds the widenings
from booleans over integers and floats to complex numbers, element by element for arrays and matrices, and
from three numbers to an axis. -/
namespace Cqasm

def sizeAccepts (expected actual : Int) : Bool := expected < 0 || expected == actual

namespace Shape

def accepts : (expected actual : Shape) → Bool
  | .scalar k, .scalar l => k == l
  | .array e n, .array f m => e == f && sizeAccepts n m
  | .matrix e r c, .matrix f s d => e == f && sizeAccepts r s && sizeAccepts c d
  | _, _ => false

def widensTo : (source target : Shape) → Bool
  | .scalar .bool, .scalar .int => true
  | .scalar .bool, .scalar .float => true
  | .scalar .bool, .scalar .complex => true
  | .scalar .int, .scalar .float => true
  | .scalar .int, .scalar .complex => true
  | .scalar .float, .scalar .complex => true
  | .array .bool n, .array .int e => sizeAccepts e n
  | .array .bool n, .array .float e => sizeAccepts e n
  | .array .int n, .array .float e => sizeAccepts e n
  | .array .bool n, .scalar .axis => n == 3
  | .array .int n, .scalar .axis => n == 3
  | .array .float n, .scalar .axis => n == 3
  | .matrix .real r c, .matrix .complex s d => sizeAccepts s r && sizeAccepts d c
  | _, _ => false

end Shape

namespace Ty

def accepts (expected actual : Ty) : Bool :=
  (!expected.assignable || actual.assignable) && expected.shape.accepts actual.shape

def promotesTo (source target : Ty) : Bool :=
  target.accepts source || (!target.assignable && source.shape.widensTo target.shape)

end Ty

end Cqasm
