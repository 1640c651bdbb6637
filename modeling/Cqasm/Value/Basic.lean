import Cqasm.Fault
import Cqasm.Number.Integer
import Cqasm.RuntimeFunction
import Cqasm.Value.Complex
import Cqasm.Value.Matrix

/-! Values known to the analysis: constants, references to variables and to elements of array variables, and
calls that are left to run time. -/
namespace Cqasm

inductive Constant where
  | bool (b : Bool)
  | int (i : Int64)
  | float (x : Float)
  | complex (z : Complex)
  | axis (x y z : Float)
  | string (text : String)
  | json (text : String)
  | boolArray (items : List Bool)
  | intArray (items : List Int64)
  | floatArray (items : List Float)
  | realMatrix (m : Matrix Float)
  | complexMatrix (m : Matrix Complex)
  deriving DecidableEq

namespace Constant

open Number (ofLength)

def shape : Constant → Shape
  | .bool _ => .scalar .bool
  | .int _ => .scalar .int
  | .float _ => .scalar .float
  | .complex _ => .scalar .complex
  | .axis _ _ _ => .scalar .axis
  | .string _ => .scalar .string
  | .json _ => .scalar .json
  | .boolArray items => .array .bool items.length
  | .intArray items => .array .int items.length
  | .floatArray items => .array .float items.length
  -- a matrix without entries may have a dimension of any length
  | .realMatrix m => .matrix .real (ofLength m.rows) (ofLength m.cols)
  | .complexMatrix m => .matrix .complex (ofLength m.rows) (ofLength m.cols)

def type (c : Constant) : Ty := ⟨c.shape, false⟩

def count : Constant → Int
  | .axis _ _ _ => 3
  | .boolArray items => items.length
  | .intArray items => items.length
  | .floatArray items => items.length
  | .realMatrix m => ofLength (m.rows * m.cols)
  | .complexMatrix m => ofLength (m.rows * m.cols)
  | _ => 1

end Constant

structure Selection where
  id : Nat
  element : Element
  size : Int
  assignable : Bool
  indices : List Int
  deriving DecidableEq, Repr

namespace Selection

def arrayType (s : Selection) : Ty := ⟨.array s.element s.size, s.assignable⟩

def type (s : Selection) : Ty :=
  if s.indices.length = 1 then ⟨.scalar s.element.scalar, s.assignable⟩
  else ⟨.array s.element s.indices.length, s.assignable⟩

def ofType (id : Nat) (t : Ty) (indices : List Int) : Except Fault Selection :=
  match t.shape with
  | .array element size => .ok ⟨id, element, size, t.assignable, indices⟩
  | _ => .error (.notIndexable t)

end Selection

inductive Value where
  | const (c : Constant)
  | reference (id : Nat) (type : Ty)
  | selection (s : Selection)
  | call (function : RuntimeFunction) (arguments : List Value)

namespace Value

def type : Value → Ty
  | .const c => c.type
  | .reference _ type => type
  | .selection s => s.type
  | .call function _ => function.result

def count : Value → Int
  | .const c => c.count
  | .reference _ type => type.size
  | .selection s => s.indices.length
  | .call function _ => function.result.size

def isConstant : Value → Bool
  | .const _ => true
  | _ => false

def bool? : Value → Option Bool
  | .const (.bool b) => some b
  | _ => none

def int? : Value → Option Int64
  | .const (.int i) => some i
  | _ => none

def float? : Value → Option Float
  | .const (.float x) => some x
  | _ => none

def complex? : Value → Option Complex
  | .const (.complex z) => some z
  | _ => none

def id? : Value → Option Nat
  | .reference id _ => some id
  | .selection s => some s.id
  | _ => none

def storageType? : Value → Option Ty
  | .reference _ type => some type
  | .selection s => some s.arrayType
  | _ => none

def requireConstant (v : Value) : Except Fault Unit :=
  if v.isConstant then .ok () else .error .dynamicValue

def requireConstants (vs : List Value) : Except Fault Unit :=
  if vs.all isConstant then .ok () else .error .dynamicValue

end Value

end Cqasm
