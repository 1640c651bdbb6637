import Cqasm.Gate.Basic
import Cqasm.InstructionSet.Basic
import Cqasm.Value.Promotion

/-! Rules for gates and instructions that looking up their operand types does not cover. -/
namespace Cqasm

namespace Gate

/-- A modified gate is looked up by its innermost gate and by what the outermost modifier makes of it. -/
def resolutionName {ν : Type} (set : InstructionSet) : Gate ν → String
  | .named node => node.name
  | .modified node inner =>
    let composition := if set.isSingleQubitModifier node.name then Composition.singleQubit else .twoQubit
    composition.nameOf inner.terminalName

def isTwoQubit {ν : Type} (set : InstructionSet) (g : Gate ν) : Bool :=
  set.isTwoQubitGate (g.resolutionName set)

def requireModifiable {ν : Type} (set : InstructionSet) : Gate ν → Except Fault Unit
  | .named _ => .ok ()
  | .modified _ inner => if inner.isTwoQubit set then .error .modifiedMultiQubit else .ok ()

end Gate

namespace InstructionSet

/-- The parameter of a gate or instruction, promoted to the type that the set declares. A value whose type
promotes can itself be promoted, so the last refusal is only there to make the function total. -/
def resolveParameter (set : InstructionSet) (name : String) (parameter : Value) : Except Fault Value :=
  let refusal : Except Fault Value := .error (.badParameter name [parameter.type])
  match set.paramType? name with
  | none => refusal
  | some type =>
    if parameter.type.promotesTo type then
      match parameter.promote type with
      | some promoted => .ok promoted
      | none => refusal
    else refusal

def resolveParameter? (set : InstructionSet) (name : String) : Option Value → Except Fault (Option Value)
  | some parameter => do
    let promoted ← set.resolveParameter name parameter
    return some promoted
  | none => if (set.paramType? name).isSome then .error (.badParameter name []) else .ok none

end InstructionSet

namespace Value

def addressed (v : Value) : UInt64 := .ofNat v.count.toNat

def qubitCounts (operands : List Value) : List UInt64 :=
  (operands.filter fun v => v.type.isQuantum).map addressed

def requireUniformQubits (operands : List Value) : Except Fault Unit :=
  match qubitCounts operands with
  | [] => .ok ()
  | first :: rest =>
    match rest.find? (· ≠ first) with
    | some other => .error (.unequalQubitCounts first other)
    | none => .ok ()

/-- The number of indices that the references among the operands address in storage of some kind. The sum wraps. -/
def addressedIn (storage : Ty → Bool) (operands : List Value) : UInt64 :=
  (operands.filter fun v => v.storageType?.any storage).foldr (fun v total => v.addressed + total) 0

def requirePairedBits (operands : List Value) : Except Fault Unit :=
  if addressedIn Ty.isQuantum operands = addressedIn Ty.isBitLike operands then .ok ()
  else .error .unpairedMeasure

end Value

end Cqasm
