import Cqasm.Gate.Basic
import Cqasm.Instruction
import Cqasm.Value.Basic

/-! Analysed programs. Values name variables by their place in the list of all variables of the program. -/
namespace Cqasm

namespace Graph

structure Variable where
  name : String
  type : Ty
  annotations : List (AnnotationItem Value)
  location : Option Location

structure GateInstruction where
  instruction : Instruction
  gate : Gate Value
  operands : List Value
  annotations : List (AnnotationItem Value)
  location : Option Location

structure NonGateInstruction where
  instruction : Instruction
  operands : List Value
  parameter : Option Value
  annotations : List (AnnotationItem Value)
  location : Option Location

structure Assignment where
  target : Value
  value : Value
  annotations : List (AnnotationItem Value)
  location : Option Location

inductive Statement where
  | gate (g : GateInstruction)
  | nonGate (i : NonGateInstruction)
  | assign (a : Assignment)
  | block (vars : List Nat) (statements : List Statement) (location : Option Location)

def Statement.location : Statement → Option Location
  | .gate g => g.location
  | .nonGate i => i.location
  | .assign a => a.location
  | .block _ _ location => location

structure Block where
  vars : List Nat
  statements : List Statement
  location : Option Location

namespace Block

def empty : Block := ⟨[], [], none⟩

def toStatement (b : Block) : Statement := .block b.vars b.statements b.location

def addVariable (b : Block) (id : Nat) : Block := { b with vars := b.vars ++ [id] }

def hull : Option Location → Option Location → Option Location
  | some l, some other => some (l.covering other)
  | some l, none => some l
  | none, other => other

def addStatement (b : Block) (s : Statement) : Block :=
  { b with statements := b.statements ++ [s], location := hull b.location s.location }

end Block

structure Program where
  apiVersion : Version
  version : Version
  block : Block
  vars : List Variable

end Graph

end Cqasm
