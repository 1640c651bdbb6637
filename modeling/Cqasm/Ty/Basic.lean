import Cqasm.Number.Integer

/-! Types of values: scalars, arrays and matrices, each either assignable storage or a plain value. A negative
size stands for any size. -/
namespace Cqasm

inductive Scalar where
  | bool | int | float | complex | axis | string | json | qubit | bit
  deriving DecidableEq, Repr

inductive Element where
  | qubit | bit | bool | int | float
  deriving DecidableEq, Repr

inductive Entry where
  | real | complex
  deriving DecidableEq, Repr

inductive Shape where
  | scalar (kind : Scalar)
  | array (element : Element) (size : Int)
  | matrix (entry : Entry) (rows cols : Int)
  deriving DecidableEq, Repr

structure Ty where
  shape : Shape
  assignable : Bool
  deriving DecidableEq, Repr

def Scalar.name : Scalar → String
  | .bool => "bool"
  | .int => "int"
  | .float => "float"
  | .complex => "complex"
  | .axis => "axis"
  | .string => "string"
  | .json => "json"
  | .qubit => "qubit"
  | .bit => "bit"

namespace Element

def scalar : Element → Scalar
  | .qubit => .qubit
  | .bit => .bit
  | .bool => .bool
  | .int => .int
  | .float => .float

def name (e : Element) : String := e.scalar.name

end Element

def Entry.name : Entry → String
  | .real => "real"
  | .complex => "complex"

def unconstrained : Int := -1

namespace Shape

def name : Shape → String
  | .scalar kind => kind.name
  | .array element _ => element.name ++ " array"
  | .matrix entry _ _ => entry.name ++ " matrix"

def size : Shape → Int
  | .scalar .axis => 3
  | .scalar _ => 1
  | .array _ n => n
  | .matrix _ rows cols => if rows < 0 ∨ cols < 0 then unconstrained else Number.mulWrapping rows cols

def element? : Shape → Option Element
  | .array element _ => some element
  | _ => none

end Shape

namespace Ty

def ofScalar (kind : Scalar) : Ty := ⟨.scalar kind, false⟩

def bool : Ty := ofScalar .bool

def int : Ty := ofScalar .int

def float : Ty := ofScalar .float

def complex : Ty := ofScalar .complex

def name (t : Ty) : String := t.shape.name

def size (t : Ty) : Int := t.shape.size

def isArray (t : Ty) : Bool := t.shape.element?.isSome

def isQuantum (t : Ty) : Bool :=
  match t.shape with
  | .scalar .qubit | .array .qubit _ => true
  | _ => false

def isBitLike (t : Ty) : Bool :=
  match t.shape with
  | .scalar .bit | .array .bit _ => true
  | _ => false

def withAssignable (t : Ty) (assignable : Bool) : Ty := { t with assignable }

def toRvalue (t : Ty) : Ty := t.withAssignable false

def withSize (t : Ty) (n : Int) : Ty :=
  match t.shape with
  | .array element _ => { t with shape := .array element n }
  | _ => t

def element? (t : Ty) : Option Ty :=
  t.shape.element?.map fun element => { t with shape := .scalar element.scalar }

end Ty

def typesText (types : List Ty) : String := ", ".intercalate (types.map Ty.name)

end Cqasm
