import Cqasm.Location.Basic

/-! Gates and annotations, over the expressions or values that stand for their parameters and operands. -/
namespace Cqasm

structure AnnotationItem (ν : Type) where
  interface : String
  operation : String
  operands : List ν
  location : Option Location

structure GateNode (ν : Type) where
  name : String
  parameter : Option ν
  annotations : List (AnnotationItem ν)
  location : Option Location

inductive Gate (ν : Type) where
  | named (node : GateNode ν)
  | modified (node : GateNode ν) (inner : Gate ν)

namespace Gate

def node {ν : Type} : Gate ν → GateNode ν
  | .named node => node
  | .modified node _ => node

def name {ν : Type} (g : Gate ν) : String := g.node.name

def terminalName {ν : Type} : Gate ν → String
  | .named node => node.name
  | .modified _ inner => inner.terminalName

end Gate

end Cqasm
