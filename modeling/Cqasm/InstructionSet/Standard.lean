import Cqasm.InstructionSet.Basic

/-! The instruction set of language version 3. -/
namespace Cqasm.InstructionSet

def oneOperand : List String := ["Q", "V"]

def twoOperands : List String := ["QQ", "QV", "VQ", "VV"]

def plainGates : List String :=
  ["H", "I", "mX90", "mY90", "S", "Sdag", "T", "Tdag", "X", "X90", "Y", "Y90", "Z"]

def rotations : List String := ["Rx", "Ry", "Rz"]

def standard : InstructionSet :=
  let controlled := (((((empty.addTwoQubitGate "CNOT" none twoOperands)
    |>.addTwoQubitGate "CR" (some 'f') twoOperands)
    |>.addTwoQubitGate "CRk" (some 'i') twoOperands)
    |>.addTwoQubitGate "CZ" none twoOperands)
    |>.addTwoQubitGate "SWAP" none twoOperands)
  let plain := plainGates.foldl (fun set name => set.addSingleQubitGate name none oneOperand) controlled
  let gates := rotations.foldl (fun set name => set.addSingleQubitGate name (some 'f') oneOperand) plain
  gates.addMeasure "measure" none ["BQ", "WV", "BV", "WQ"]
    |>.addNonGate "reset" none ["", "Q", "V"]
    |>.addNonGate "init" none oneOperand
    |>.addNonGate "barrier" none oneOperand
    |>.addNonGate "wait" (some 'i') oneOperand
    |>.addModifier "inv" none false
    |>.addModifier "pow" (some 'f') false
    |>.addModifier "ctrl" none true

end Cqasm.InstructionSet
