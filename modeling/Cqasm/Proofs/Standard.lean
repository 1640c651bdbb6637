import Cqasm.Analyzer
import Cqasm.Proofs.Overload

/-! The tables of the standard analyzer, each as the history of what was registered in it. -/
namespace Cqasm

namespace Analyzer

theorem addConstants (cs : List (String × Constant)) (s : Scope) :
    cs.foldl (fun s (name, c) => s.addVariable name (.const c)) s =
      { s with vars := cs.foldl (fun t (name, c) => t.add name (.const c)) s.vars } := by
  induction cs generalizing s with
  | nil => rfl
  | cons c cs ih => exact ih (s.addVariable c.1 (.const c.2))

theorem addBuiltinList (bs : List Builtin) (s : Scope) :
    bs.foldl addBuiltin s =
      { s with
        natives := s.natives.addAll Builtin.name Builtin.native Builtin.params bs
        functions := s.functions.addAll Builtin.name Builtin.runtime Builtin.params bs } := by
  induction bs generalizing s with
  | nil => rfl
  | cons b bs ih => exact ih (addBuiltin s b)

theorem addBuiltinsEq (s : Scope) : addBuiltins s =
    { s with
      vars := Builtin.constants.foldl (fun t (name, c) => t.add name (.const c)) s.vars
      natives := s.natives.addAll Builtin.name Builtin.native Builtin.params Builtin.all
      functions := s.functions.addAll Builtin.name Builtin.runtime Builtin.params Builtin.all } := by
  simp only [addBuiltins, addConstants, addBuiltinList]

theorem addModifierList (ms : List GateModifier) (a : Analyzer) :
    ms.foldl addModifier a =
      a.modifyGlobal fun s =>
        { s with modifiers := s.modifiers.addAll GateModifier.name id GateModifier.params ms } := by
  induction ms generalizing a with
  | nil => rfl
  | cons m ms ih => exact ih (a.addModifier m)

theorem addInstructionList (is : List Instruction) (a : Analyzer) :
    is.foldl addInstruction a =
      a.modifyGlobal fun s =>
        { s with instructions := s.instructions.addAll Instruction.name id Instruction.operands is } := by
  induction is generalizing a with
  | nil => rfl
  | cons i is ih => exact ih (a.addInstruction i)

def defaults (s : Scope) (ms : List GateModifier) (is : List Instruction) : Scope where
  vars := Builtin.constants.foldl (fun t (name, c) => t.add name (.const c)) s.vars
  natives := s.natives.addAll Builtin.name Builtin.native Builtin.params Builtin.all
  functions := s.functions.addAll Builtin.name Builtin.runtime Builtin.params Builtin.all
  instructions := s.instructions.addAll Instruction.name id Instruction.operands is
  modifiers := s.modifiers.addAll GateModifier.name id GateModifier.params ms
  block := s.block

theorem addDefaultsOk {a : Analyzer} {ms : List GateModifier} {is : List Instruction}
    (modifiers : a.instructionSet.gateModifiers = .ok ms) (instructions : a.instructionSet.instructions = .ok is) :
    a.addDefaults = (a.modifyGlobal fun s => defaults s ms is, .ok ()) := by
  simp only [addDefaults, modifiers, instructions, addModifierList, addInstructionList, modifyGlobal, addBuiltinsEq,
    defaults]

theorem addDefaultsEq (a : Analyzer) : ∃ ms is, a.addDefaults.1 = (a.modifyGlobal fun s => defaults s ms is) ∧
    (∀ m ∈ ms, ∃ all, a.instructionSet.gateModifiers = .ok all ∧ m ∈ all) ∧
    ∀ i ∈ is, ∃ all, a.instructionSet.instructions = .ok all ∧ i ∈ all := by
  cases modifiers : a.instructionSet.gateModifiers with
  | error e =>
    refine ⟨[], [], ?_, by simp, by simp⟩
    simp only [addDefaults, modifiers, modifyGlobal, addBuiltinsEq, defaults]
    rfl
  | ok ms =>
    cases instructions : a.instructionSet.instructions with
    | error e =>
      refine ⟨ms, [], ?_, by simp, by simp⟩
      simp only [addDefaults, modifiers, instructions, addModifierList, modifyGlobal, addBuiltinsEq, defaults]
      rfl
    | ok is => exact ⟨ms, is, congrArg Prod.fst (addDefaultsOk modifiers instructions), by simp, by simp⟩

theorem standardModifiersRead : ∃ ms, InstructionSet.standard.gateModifiers = .ok ms := by
  have read : InstructionSet.standard.gateModifiers.toOption.isSome = true := by decide +kernel
  cases result : InstructionSet.standard.gateModifiers with
  | ok ms => exact ⟨ms, rfl⟩
  | error e => simp [result, Except.toOption] at read

theorem standardInstructionsRead : ∃ is, InstructionSet.standard.instructions = .ok is := by
  have read : InstructionSet.standard.instructions.toOption.isSome = true := by decide +kernel
  cases result : InstructionSet.standard.instructions with
  | ok is => exact ⟨is, rfl⟩
  | error e => simp [result, Except.toOption] at read

theorem standardRegistered : ∃ ms is, InstructionSet.standard.gateModifiers = .ok ms ∧
    InstructionSet.standard.instructions = .ok is ∧
    standard = ⟨⟨[3, 0]⟩, .sensitive, .standard, defaults (.empty .sensitive) ms is⟩ := by
  obtain ⟨ms, modifiers⟩ := standardModifiersRead
  obtain ⟨is, instructions⟩ := standardInstructionsRead
  refine ⟨ms, is, modifiers, instructions, ?_⟩
  have set : (empty ⟨[3, 0]⟩ .sensitive .standard).instructionSet = .standard := rfl
  rw [standard, addDefaultsOk (by rw [set, modifiers]) (by rw [set, instructions])]
  rfl

theorem standardSet : standard.instructionSet = .standard := by
  obtain ⟨ms, is, _, _, same⟩ := standardRegistered
  rw [same]

theorem standardGlobal : ∃ ms is, InstructionSet.standard.gateModifiers = .ok ms ∧
    InstructionSet.standard.instructions = .ok is ∧ standard.global = defaults (.empty .sensitive) ms is := by
  obtain ⟨ms, is, modifiers, instructions, same⟩ := standardRegistered
  exact ⟨ms, is, modifiers, instructions, by rw [same]⟩

end Analyzer

end Cqasm
