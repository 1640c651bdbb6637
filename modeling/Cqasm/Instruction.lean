import Cqasm.Ty.Shorthand

/-! Descriptions of instructions and gate modifiers. -/
namespace Cqasm

inductive Composition where
  | singleQubit | twoQubit
  deriving DecidableEq, Repr

namespace Composition

def mark : Composition → String
  | .singleQubit => "1q"
  | .twoQubit => "2q"

def nameOf (c : Composition) (gate : String) : String := c.mark ++ "_" ++ gate

end Composition

inductive InstructionKind where
  | namedGate
  | composition (c : Composition)
  | nonGate
  | custom
  deriving DecidableEq, Repr

def InstructionKind.isGate : InstructionKind → Bool
  | .namedGate | .composition _ => true
  | .nonGate | .custom => false

structure Instruction where
  name : String
  operands : List Ty
  kind : InstructionKind
  deriving DecidableEq, Repr

namespace Instruction

def ofCodes (name spec : String) (kind : InstructionKind) : Except ShorthandError Instruction := do
  let operands ← Ty.ofCodes spec
  return ⟨name, operands, kind⟩

def text (i : Instruction) : String := i.name ++ "(" ++ typesText i.operands ++ ")"

end Instruction

structure GateModifier where
  name : String
  param : Option Ty
  twoQubit : Bool
  deriving DecidableEq, Repr

def GateModifier.params (m : GateModifier) : List Ty := m.param.toList

end Cqasm
