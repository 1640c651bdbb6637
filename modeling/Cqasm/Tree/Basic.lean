import Cqasm.Gate.Basic
import Cqasm.Tree.Operator
import Cqasm.Ty.Basic
import Cqasm.Version

/-! Programs as written, before analysis. -/
namespace Cqasm.Tree

inductive Literal where
  | bool (b : Bool)
  | int (i : Int64)
  | float (x : Float)
  | string (text : String)
  | json (text : String)
  deriving DecidableEq

inductive IndexEntry (ε : Type) where
  | item (index : ε)
  | range (first last : ε)

inductive Expr where
  | literal (value : Literal) (location : Option Location)
  | name (name : String) (location : Option Location)
  | index (base : Expr) (entries : List (IndexEntry Expr)) (location : Option Location)
  | apply (function : String) (arguments : List Expr) (location : Option Location)
  | list (items : List Expr) (location : Option Location)

namespace Expr

def location : Expr → Option Location
  | .literal _ location => location
  | .name _ location => location
  | .index _ _ location => location
  | .apply _ _ location => location
  | .list _ location => location

def unary (op : UnaryOperator) (operand : Expr) (location : Option Location) : Expr :=
  .apply (operatorName op.symbol) [operand] location

def binary (op : BinaryOperator) (left right : Expr) (location : Option Location) : Expr :=
  .apply (operatorName op.symbol) [left, right] location

def ternary (condition yes no : Expr) (location : Option Location) : Expr :=
  .apply (operatorName "?:") [condition, yes, no] location

end Expr

structure Declaration where
  name : String
  nameLocation : Option Location
  element : Element
  size : Option Int
  initializer : Option Expr
  annotations : List (AnnotationItem Expr)
  location : Option Location

structure GateInstruction where
  gate : Gate Expr
  operands : List Expr
  annotations : List (AnnotationItem Expr)
  location : Option Location

structure NonGateInstruction where
  name : String
  parameter : Option Expr
  operands : List Expr
  annotations : List (AnnotationItem Expr)
  location : Option Location

structure Assignment where
  target : Expr
  value : Expr
  annotations : List (AnnotationItem Expr)
  location : Option Location

inductive Statement where
  | declare (d : Declaration)
  | gate (g : GateInstruction)
  | nonGate (i : NonGateInstruction)
  | assign (a : Assignment)
  | block (body : List Statement) (location : Option Location)

structure Program where
  version : Version
  versionLocation : Option Location
  statements : List Statement

end Cqasm.Tree
