import Cqasm.Instruction
import Cqasm.Table
import Cqasm.Text.CasePolicy

/-! Sets of instructions, by name: gates on one qubit and on two, other instructions, and gate modifiers. -/
namespace Cqasm

structure Signature where
  name : String
  param : Option Char
  operands : List String
  measure : Bool
  deriving DecidableEq, Repr

structure ModifierSignature where
  name : String
  param : Option Char
  twoQubit : Bool
  deriving DecidableEq, Repr

structure InstructionSet where
  policy : CasePolicy
  singleQubitGates : Table Signature
  twoQubitGates : Table Signature
  nonGates : Table Signature
  modifiers : Table ModifierSignature
  deriving DecidableEq, Repr

namespace InstructionSet

def empty : InstructionSet := ⟨.sensitive, .empty, .empty, .empty, .empty⟩

def key (set : InstructionSet) (name : String) : String := set.policy.key name

def rekey {α : Type} (policy : CasePolicy) (name : α → String) (table : Table α) : Table α :=
  table.values.foldl (fun t a => t.insert (policy.key (name a)) a) .empty

/-- The same set under another case policy. Names that become the same keep the place of the first and the
signature of the last. -/
def withPolicy (set : InstructionSet) (policy : CasePolicy) : InstructionSet where
  policy := policy
  singleQubitGates := rekey policy Signature.name set.singleQubitGates
  twoQubitGates := rekey policy Signature.name set.twoQubitGates
  nonGates := rekey policy Signature.name set.nonGates
  modifiers := rekey policy ModifierSignature.name set.modifiers

def addSingleQubitGate (set : InstructionSet) (name : String) (param : Option Char) (operands : List String) :
    InstructionSet :=
  { set with
    singleQubitGates := set.singleQubitGates.insert (set.key name) ⟨name, param, operands, false⟩ }

def addTwoQubitGate (set : InstructionSet) (name : String) (param : Option Char) (operands : List String) :
    InstructionSet :=
  { set with twoQubitGates := set.twoQubitGates.insert (set.key name) ⟨name, param, operands, false⟩ }

def addNonGate (set : InstructionSet) (name : String) (param : Option Char) (operands : List String) :
    InstructionSet :=
  { set with nonGates := set.nonGates.insert (set.key name) ⟨name, param, operands, false⟩ }

def addMeasure (set : InstructionSet) (name : String) (param : Option Char) (operands : List String) :
    InstructionSet :=
  { set with nonGates := set.nonGates.insert (set.key name) ⟨name, param, operands, true⟩ }

def addModifier (set : InstructionSet) (name : String) (param : Option Char) (twoQubit : Bool) :
    InstructionSet :=
  { set with modifiers := set.modifiers.insert (set.key name) ⟨name, param, twoQubit⟩ }

def isSingleQubitNamedGate (set : InstructionSet) (name : String) : Bool :=
  set.singleQubitGates.contains (set.key name)

def isTwoQubitNamedGate (set : InstructionSet) (name : String) : Bool :=
  set.twoQubitGates.contains (set.key name)

def isNamedGate (set : InstructionSet) (name : String) : Bool :=
  set.isSingleQubitNamedGate name || set.isTwoQubitNamedGate name

def isComposition (set : InstructionSet) (c : Composition) (name : String) : Bool :=
  c.mark.toList.isPrefixOf (set.key name).toList

def isSingleQubitGate (set : InstructionSet) (name : String) : Bool :=
  set.isSingleQubitNamedGate name || set.isComposition .singleQubit name

def isTwoQubitGate (set : InstructionSet) (name : String) : Bool :=
  set.isTwoQubitNamedGate name || set.isComposition .twoQubit name

def isGate (set : InstructionSet) (name : String) : Bool :=
  set.isSingleQubitGate name || set.isTwoQubitGate name

def isNonGate (set : InstructionSet) (name : String) : Bool := set.nonGates.contains (set.key name)

def isMeasure (set : InstructionSet) (name : String) : Bool :=
  (set.nonGates.find? (set.key name)).any Signature.measure

def modifier? (set : InstructionSet) (name : String) : Option ModifierSignature :=
  set.modifiers.find? (set.key name)

def isModifier (set : InstructionSet) (name : String) : Bool := (set.modifier? name).isSome

def isSingleQubitModifier (set : InstructionSet) (name : String) : Bool :=
  (set.modifier? name).any fun m => !m.twoQubit

def isTwoQubitModifier (set : InstructionSet) (name : String) : Bool :=
  (set.modifier? name).any ModifierSignature.twoQubit

/-- The signature of a name that is no modifier. A name in several groups counts as a gate first. -/
def signature? (set : InstructionSet) (name : String) : Option Signature :=
  (set.singleQubitGates.find? (set.key name)).or <|
    (set.twoQubitGates.find? (set.key name)).or (set.nonGates.find? (set.key name))

def paramCode? (set : InstructionSet) (name : String) : Option Char :=
  ((set.signature? name).bind Signature.param).or ((set.modifier? name).bind ModifierSignature.param)

def paramType? (set : InstructionSet) (name : String) : Option Ty :=
  (set.paramCode? name).bind fun code => (Ty.ofCode code).toOption

def kindOf (set : InstructionSet) (name : String) : InstructionKind :=
  if set.isNamedGate name then .namedGate
  else if set.isNonGate name then .nonGate
  else if set.isComposition .singleQubit name then .composition .singleQubit
  else if set.isComposition .twoQubit name then .composition .twoQubit
  else .custom

def namedGates (set : InstructionSet) : List Signature :=
  set.twoQubitGates.values ++ set.singleQubitGates.values

/-- Names with the codes of an operand list and their kind: the named gates, the gates made from single-qubit
gates by modifiers, with a control qubit or register in front where they work on two qubits, and the rest. -/
def overloads (set : InstructionSet) : List (String × String × InstructionKind) :=
  (set.namedGates.flatMap fun s => s.operands.map fun spec => (s.name, spec, .namedGate)) ++
  (set.singleQubitGates.values.flatMap fun s => s.operands.map fun spec =>
    (Composition.singleQubit.nameOf s.name, spec, .composition .singleQubit)) ++
  (set.singleQubitGates.values.flatMap fun s => s.operands.flatMap fun spec =>
    ["Q", "V"].map fun control =>
      (Composition.twoQubit.nameOf s.name, control ++ spec, .composition .twoQubit)) ++
  (set.nonGates.values.flatMap fun s => s.operands.map fun spec => (s.name, spec, .nonGate))

def instructions (set : InstructionSet) : Except ShorthandError (List Instruction) :=
  set.overloads.mapM fun (name, spec, kind) => Instruction.ofCodes name spec kind

def gateModifier (m : ModifierSignature) : Except ShorthandError GateModifier :=
  match m.param with
  | none => .ok ⟨m.name, none, m.twoQubit⟩
  | some code => do
    let type ← Ty.ofCode code
    return ⟨m.name, some type, m.twoQubit⟩

def gateModifiers (set : InstructionSet) : Except ShorthandError (List GateModifier) :=
  set.modifiers.values.mapM gateModifier

end InstructionSet

end Cqasm
