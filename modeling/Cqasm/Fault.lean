import Cqasm.Location.Basic
import Cqasm.Ty.Basic
import Cqasm.Version

/-! What can be wrong with a program or a use of a function, the kind of each fault, and its message. -/
namespace Cqasm

inductive FaultKind where
  | nameResolution | overloadResolution | constantRequired | structural | typing | evaluation
  deriving DecidableEq, Repr

inductive Fault where
  | unknownName (name : String)
  | unknownVariable (name : String)
  | noOverload (name : String) (arguments : List Ty)
  | noInstruction (known : Bool) (name : String) (operands : List Ty)
  | badParameter (name : String) (parameters : List Ty)
  | dynamicValue
  | dynamicIndex
  | notInteger
  | notIndexable (type : Ty)
  | notArray (type : Ty)
  | unconstrainedSize (type : Ty)
  | notAssignable
  | notCoercible (source target : Ty)
  | notListItem (type : Ty)
  | argumentCount (expected given : Nat)
  | argumentKind (expected : Scalar) (given : Ty)
  | branchCount
  | overflow (operation : String)
  | divisionByZero
  | shiftAmount (amount : Int64)
  | versionComponent
  | versionMismatch (supported given : Version)
  | arraySize (element : Element)
  | redeclared (name : String)
  | indexOutOfRange (index size : Int)
  | reversedRange
  | modifiedMultiQubit
  | unequalQubitCounts (first other : UInt64)
  | unpairedMeasure
  -- what a registered function makes of its arguments, at a place of its own if it names one
  | other (kind : FaultKind) (message : String) (location : Option Location)
  deriving DecidableEq, Repr

namespace Fault

def kind : Fault → FaultKind
  | .unknownName _ | .unknownVariable _ => .nameResolution
  | .noOverload _ _ | .badParameter _ _ => .overloadResolution
  | .noInstruction known _ _ => if known then .overloadResolution else .nameResolution
  | .dynamicValue | .dynamicIndex => .constantRequired
  | .notInteger | .notIndexable _ | .notArray _ | .unconstrainedSize _ | .notAssignable
  | .notCoercible _ _ | .notListItem _ | .argumentCount _ _ | .argumentKind _ _ | .branchCount => .typing
  | .overflow _ | .divisionByZero | .shiftAmount _ => .evaluation
  | .versionComponent | .versionMismatch _ _ | .arraySize _ | .redeclared _ | .indexOutOfRange _ _
  | .reversedRange | .modifiedMultiQubit | .unequalQubitCounts _ _ | .unpairedMeasure => .structural
  | .other kind _ _ => kind

def scalarWithArticle (kind : Scalar) : String :=
  (if kind = .int ∨ kind = .axis then "an " else "a ") ++ kind.name

def message : Fault → String
  | .unknownName name => "failed to resolve '" ++ name ++ "'"
  | .unknownVariable name => "failed to resolve variable '" ++ name ++ "'"
  | .noOverload name arguments =>
    "failed to resolve overload for '" ++ name ++ "' with argument pack (" ++ typesText arguments ++ ")"
  | .noInstruction _ name operands =>
    "failed to resolve instruction '" ++ name ++ "' with argument pack (" ++ typesText operands ++ ")"
  | .badParameter name parameters =>
    "failed to resolve '" ++ name ++ "' with argument pack (" ++ typesText parameters ++ ")"
  | .dynamicValue => "dynamic values are not supported here"
  | .dynamicIndex => "integer must be constant"
  | .notInteger => "expected an integer"
  | .notIndexable type => "indexation is not supported for value of type '" ++ type.name ++ "'"
  | .notArray type => "type (" ++ type.name ++ ") is not of array type"
  | .unconstrainedSize type => "size of unconstrained type (" ++ type.name ++ ") is not defined"
  | .notAssignable => "left-hand side of assignment statement must be assignable"
  | .notCoercible source target =>
    "type of right-hand side (" ++ source.name ++ ") could not be coerced to left-hand side (" ++
      target.name ++ ")"
  | .notListItem type =>
    "expecting a const bool, const int, or const float value, got " ++ type.name
  | .argumentCount expected given =>
    "expected " ++ toString expected ++ " argument(s), got " ++ toString given
  | .argumentKind expected given =>
    "expected " ++ scalarWithArticle expected ++ " argument, got " ++ given.name
  | .branchCount => "expected 3 arguments"
  | .overflow operation => "integer overflow in '" ++ operation ++ "'"
  | .divisionByZero => "division by zero"
  | .shiftAmount amount => "invalid shift amount " ++ toString amount.toInt
  | .versionComponent => "invalid version component"
  | .versionMismatch supported given =>
    "the only cQASM version supported is " ++ supported.text ++ ", but the cQASM file is version " ++
      given.text
  | .arraySize element => "declaring " ++ element.name ++ " array of size <= 0"
  | .redeclared name => "variable '" ++ name ++ "' redeclared in the same scope"
  | .indexOutOfRange index size =>
    "index " ++ toString index ++ " out of range (size " ++ toString size ++ ")"
  | .reversedRange => "last index is lower than first index"
  | .modifiedMultiQubit => "trying to apply a gate modifier to a multi-qubit gate"
  | .unequalQubitCounts first second =>
    "qubit operands have different index-list lengths (" ++ toString first ++ " and " ++ toString second ++ ")"
  | .unpairedMeasure => "qubit and bit indices have different sizes"
  | .other _ message _ => message

/-- The place that a fault brings along, wherever it is found. -/
def place : Fault → Option Location
  | .other _ _ location => location
  | _ => none

end Fault

end Cqasm
