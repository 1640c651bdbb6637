import Cqasm.Proofs.Descriptors

/-! Which parameters are asked for. The codes of operands and modifiers are read when a set is registered. That of a
gate or another instruction is read each time it is used, and where it cannot be read no parameter is asked for. -/
namespace Cqasm

namespace InstructionSet

variable {set : InstructionSet}

def ModifiersReadable (set : InstructionSet) : Prop :=
  ∀ sig ∈ set.modifiers.values, ∀ code ∈ sig.param, ∃ type, Ty.ofCode code = .ok type

/- The code of the parameter that counts for a name. A modifier of this name counts last, and only where no code is
given for the gate or instruction. -/
inductive Declares (set : InstructionSet) (name : String) (code : Char) : Prop where
  | signature {s} (found : set.signature? name = some s) (given : s.param = some code) : Declares set name code
  | modifier {sig} (plain : ∀ s, set.signature? name = some s → s.param = none) (found : set.modifier? name = some sig)
      (given : sig.param = some code) : Declares set name code

theorem paramCodeIff {name : String} {code : Char} : set.paramCode? name = some code ↔ set.Declares name code := by
  rw [paramCode?, Option.or_eq_some_iff]
  constructor
  · rintro (own | ⟨plain, below⟩)
    · obtain ⟨s, found, given⟩ := Option.bind_eq_some_iff.mp own
      exact .signature found given
    · obtain ⟨sig, found, given⟩ := Option.bind_eq_some_iff.mp below
      exact .modifier (fun s here => by simpa [here] using plain) found given
  · intro declares
    cases declares with
    | signature found given => exact .inl (Option.bind_eq_some_iff.mpr ⟨_, found, given⟩)
    | modifier plain found given =>
      exact .inr ⟨Option.bind_eq_none_iff.mpr plain, Option.bind_eq_some_iff.mpr ⟨_, found, given⟩⟩

theorem paramTypeIff (name : String) :
    (set.paramType? name).isSome = true ↔ ∃ code, set.Declares name code ∧ ∃ type, Ty.ofCode code = .ok type := by
  have read (code : Char) : (Ty.ofCode code).toOption.isSome = true ↔ ∃ type, Ty.ofCode code = .ok type := by
    cases Ty.ofCode code <;> simp [Except.toOption]
  simp only [paramType?, Option.isSome_bind, Option.any_eq_true, paramCodeIff, read]

theorem gateModifiersRead : (∃ ms, set.gateModifiers = .ok ms) ↔ set.ModifiersReadable := by
  have one (sig : ModifierSignature) :
      (∃ m, gateModifier sig = .ok m) ↔ ∀ code ∈ sig.param, ∃ type, Ty.ofCode code = .ok type := by
    obtain ⟨name, param, twoQubit⟩ := sig
    cases param with
    | none => simp [gateModifier]
    | some code =>
      simp only [gateModifier, bindOk, pureOk]
      simp
  constructor
  · rintro ⟨ms, read⟩ sig entered
    exact (one sig).mp (mapMEach read sig entered)
  · intro readable
    exact mapMOk fun sig entered => (one sig).mpr (readable sig entered)

theorem instructionsRead : (∃ is, set.instructions = .ok is) ↔ set.Readable := by
  constructor
  · rintro ⟨is, read⟩ s listed spec operands
    have registers : ∃ name kind, set.Registers name spec kind := by
      rcases List.mem_append.mp listed with gate | other
      · exact ⟨_, _, .named gate operands⟩
      · exact ⟨_, _, .nonGate other operands⟩
    obtain ⟨name, kind, entered⟩ := registers
    obtain ⟨i, made⟩ := mapMEach read _ (memOverloads.mpr entered)
    exact ⟨i.operands, (ofCodesOk.mp made).2.2⟩
  · exact instructionsReadable

theorem resolveParameterAsked {name : String} {given parameter : Option Value}
    (done : set.resolveParameter? name given = .ok parameter) : given.isSome = (set.paramType? name).isSome := by
  cases given with
  | none =>
    rw [resolveParameter?] at done
    split at done
    case isTrue => cases done
    case isFalse unasked => simpa using unasked
  | some v =>
    obtain ⟨promoted, resolved, _⟩ := bindOk.mp done
    cases asked : set.paramType? name with
    | none =>
      rw [resolveParameter, asked] at resolved
      cases resolved
    | some type => rfl

end InstructionSet

def Gate.Supplied {ν : Type} (set : InstructionSet) : Gate ν → Prop
  | .named node => node.parameter.isSome = (set.paramType? node.name).isSome
  | .modified node inner =>
    (∃ sig, set.modifier? node.name = some sig ∧ node.parameter.isSome = sig.param.isSome) ∧ inner.Supplied set

namespace Analyzer

open Analysis

theorem addDefaultsSucceeds (a : Analyzer) :
    a.addDefaults.2 = .ok () ↔ a.instructionSet.Readable ∧ a.instructionSet.ModifiersReadable := by
  rw [← InstructionSet.instructionsRead, ← InstructionSet.gateModifiersRead]
  constructor
  · intro done
    cases modifiers : a.instructionSet.gateModifiers with
    | error e =>
      simp only [addDefaults, modifiers] at done
      cases done
    | ok ms =>
      cases instructions : a.instructionSet.instructions with
      | error e =>
        simp only [addDefaults, modifiers, instructions] at done
        cases done
      | ok is => exact ⟨⟨is, rfl⟩, ⟨ms, rfl⟩⟩
  · rintro ⟨⟨is, instructions⟩, ⟨ms, modifiers⟩⟩
    rw [addDefaultsOk modifiers instructions]

section Uses

variable {a : Analyzer} (assembled : a.Assembled []) {p : Tree.Program} {t : State}
  (reached : Reaches a.instructionSet (a.start p) t)
include assembled reached

theorem modifierSupplied {node : GateNode Tree.Expr} {parameter : Option Value}
    (done : modifierParameter t.scopes node = .ok parameter) :
    ∃ sig, a.instructionSet.modifier? node.name = some sig ∧ node.parameter.isSome = sig.param.isSome := by
  obtain ⟨given, m, ws, analysed, resolved, _⟩ := modifierParameterOk done
  rw [reachedModifier reached] at resolved
  obtain ⟨key, promoted, byHand | ⟨sig, found, made⟩⟩ := assembled.modifiersFrom.found resolved
  · cases byHand
  · refine ⟨sig, by rwa [InstructionSet.modifier?, ← key], ?_⟩
    have count : given.toList.length = m.param.toList.length :=
      (Value.promotedAll promoted).2.length_eq.trans (Value.promotedAllLength promoted)
    rw [← optionalGiven analysed, ← (InstructionSet.gateModifierOk made).2.2]
    cases given <;> cases asked : m.param <;> simp_all

theorem gateSupplied {tree : Gate Tree.Expr} {g : Gate Value}
    (accepted : (gate a.instructionSet t.scopes tree).result = .ok g) : tree.Supplied a.instructionSet := by
  have made := gateOk accepted
  clear accepted
  induction made with
  | named here =>
    obtain ⟨given, analysed, resolved⟩ := namedParameterOk here.parameter
    rw [Gate.Supplied, ← optionalGiven analysed]
    exact InstructionSet.resolveParameterAsked resolved
  | modified here _ _ ih => exact ⟨modifierSupplied assembled reached here.parameter, ih⟩

end Uses

theorem parametersAsDeclared {a : Analyzer} (assembled : a.Assembled []) {p : Tree.Program} {t : State}
    (reached : Reaches a.instructionSet (a.start p) t) :
    (a.addDefaults.2 = .ok () ↔ a.instructionSet.Readable ∧ a.instructionSet.ModifiersReadable) ∧
    (∀ name, (a.instructionSet.paramType? name).isSome = true ↔
      ∃ code, a.instructionSet.Declares name code ∧ ∃ type, Ty.ofCode code = .ok type) ∧
    (∀ tree g, (gate a.instructionSet t.scopes tree).result = .ok g → tree.Supplied a.instructionSet) ∧
    ∀ i g, (nonGateInstruction a.instructionSet t.scopes i).result = .ok g →
      i.parameter.isSome = (a.instructionSet.paramType? i.name).isSome := by
  refine ⟨addDefaultsSucceeds a, InstructionSet.paramTypeIff, ?_, fun i g accepted => ?_⟩
  · exact fun _ _ accepted => gateSupplied assembled reached accepted
  · obtain ⟨given, args, made⟩ := nonGateInstructionOk accepted
    rw [← optionalGiven made.analysed]
    exact InstructionSet.resolveParameterAsked made.parameter

theorem bareUsesRefused :
    standard.Assembled [] ∧ standard.addDefaults.2 = .ok () ∧
      (∀ g, (gate standard.instructionSet (standard.start blank).scopes
        (.named ⟨"Rx", none, [], none⟩)).result ≠ .ok g) ∧
      ∀ g, (gate standard.instructionSet (standard.start blank).scopes
        (.modified ⟨"pow", none, [], none⟩ bareX)).result ≠ .ok g := by
  have ⟨_, _, supplied, _⟩ := parametersAsDeclared standardAssembled (p := blank) .refl
  refine ⟨standardAssembled, by decide +kernel, fun g accepted => ?_, fun g accepted => ?_⟩
  · have given : false = (standard.instructionSet.paramType? "Rx").isSome := supplied _ _ accepted
    have asked : (standard.instructionSet.paramType? "Rx").isSome = true := by decide +kernel
    cases given.trans asked
  · obtain ⟨⟨sig, found, given⟩, _⟩ := supplied _ _ accepted
    have asked : (standard.instructionSet.modifier? "pow").any (·.param.isSome) = true := by decide +kernel
    rw [found] at asked
    cases given.trans asked

def untypedParameter : Analyzer := .empty ⟨[3, 0]⟩ .sensitive (.ofEdits [.singleQubitGate "G" (some 'x') ["Q"]])

def untypedUse : Tree.Program where
  version := ⟨[3, 0]⟩
  versionLocation := none
  statements :=
    [.declare ⟨"q", none, .qubit, none, none, [], none⟩,
      .gate ⟨.named ⟨"G", none, [], none⟩, [.name "q" none], [], none⟩]

theorem untypedParameterUnasked :
    untypedParameter.instructionSet.Declares "G" 'x' ∧ Ty.ofCode 'x' = .error (.unknownCode 'x') ∧
      untypedParameter.addDefaults.2 = .ok () ∧
      (untypedParameter.addDefaults.1.elaborate untypedUse).diagnostics = [] ∧
      (untypedParameter.addDefaults.1.elaborate untypedUse).program.block.statements.length = 1 := by
  refine ⟨?_, rfl, ?_, ?_, ?_⟩
  · exact .signature rfl rfl
  · decide +kernel
  · decide +kernel
  · decide +kernel

end Analyzer

end Cqasm
