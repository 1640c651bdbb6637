import Cqasm.Gate.Rules
import Cqasm.Proofs.Fallible
import Cqasm.Proofs.Keyed
import Cqasm.Proofs.Overload

/-! Gates under modifiers: the names and operand lists that an instruction set registers for them, and the names that
they are looked up by. One side is made from the spelling of the registration, the other from the modifier and the
gate as a program writes them. They meet in the instruction table, and nothing else does. -/
namespace Cqasm

namespace Ty

theorem ofCodesWithAppend (read : Char → Except ShorthandError Ty) (front back : List Char) {types : List Ty} :
    ofCodesWith read (front ++ back) = .ok types ↔
      ∃ xs ys, ofCodesWith read front = .ok xs ∧ ofCodesWith read back = .ok ys ∧ types = xs ++ ys := by
  induction front generalizing types with
  | nil => simp [ofCodesWith]
  | cons code rest ih =>
    simp only [List.cons_append, ofCodesWith, bindOk, pureOk, ih]
    constructor
    · rintro ⟨t, first, _, ⟨xs, ys, others, last, rfl⟩, rfl⟩
      exact ⟨t :: xs, ys, ⟨t, first, xs, others, rfl⟩, last, rfl⟩
    · rintro ⟨_, ys, ⟨t, first, xs, others, rfl⟩, last, rfl⟩
      exact ⟨t, first, xs ++ ys, ⟨xs, ys, others, last, rfl⟩, rfl⟩

theorem ofCodesAppend (front back : String) {types : List Ty} :
    ofCodes (front ++ back) = .ok types ↔
      ∃ xs ys, ofCodes front = .ok xs ∧ ofCodes back = .ok ys ∧ types = xs ++ ys := by
  simp only [ofCodes, String.toList_append, ofCodesWithAppend]

theorem ofCodesWithLength {read : Char → Except ShorthandError Ty} {codes : List Char} {types : List Ty}
    (done : ofCodesWith read codes = .ok types) : types.length = codes.length := by
  induction codes generalizing types with
  | nil =>
    cases done
    rfl
  | cons code rest ih =>
    simp only [ofCodesWith, bindOk, pureOk] at done
    obtain ⟨t, _, others, tail, rfl⟩ := done
    simp [ih tail]

theorem ofCodesLength {spec : String} {types : List Ty} (done : ofCodes spec = .ok types) :
    types.length = spec.length := (ofCodesWithLength done).trans String.length_toList

end Ty

def SpecTakes (spec : String) (args : List Value) : Prop :=
  ∃ types, Ty.ofCodes spec = .ok types ∧ Value.AllPromote args types

theorem specTakesAppend (front back : String) (args : List Value) :
    SpecTakes (front ++ back) args ↔ ∃ xs ys, args = xs ++ ys ∧ SpecTakes front xs ∧ SpecTakes back ys := by
  constructor
  · rintro ⟨_, read, promote⟩
    obtain ⟨ts, us, first, last, rfl⟩ := (Ty.ofCodesAppend front back).mp read
    exact ⟨args.take ts.length, args.drop ts.length, (List.take_append_drop ..).symm,
      ⟨ts, first, List.forall₂_take_append args ts us promote⟩, us, last, List.forall₂_drop_append args ts us promote⟩
  · rintro ⟨xs, ys, rfl, ⟨ts, first, here⟩, us, last, there⟩
    exact ⟨ts ++ us, (Ty.ofCodesAppend front back).mpr ⟨ts, us, first, last, rfl⟩, List.rel_append here there⟩

def controlCodes : List String := ["Q", "V"]

theorem controlRead {code : String} (control : code ∈ controlCodes) : ∃ t, Ty.ofCodes code = .ok [t] := by
  simp only [controlCodes, List.mem_cons, List.not_mem_nil, or_false] at control
  rcases control with rfl | rfl <;> exact ⟨_, rfl⟩

theorem controlTakes {code : String} (control : code ∈ controlCodes) {xs : List Value} (takes : SpecTakes code xs) :
    ∃ operand, xs = [operand] := by
  obtain ⟨t, read⟩ := controlRead control
  obtain ⟨types, same, promote⟩ := takes
  cases read.symm.trans same
  obtain ⟨operand, rest, _, none, rfl⟩ := List.forall₂_cons_right_iff.mp promote
  cases List.forall₂_nil_right_iff.mp none
  exact ⟨operand, rfl⟩

namespace Composition

theorem nameOfEq {c d : Composition} {s t : String} (same : c.nameOf s = d.nameOf t) : c = d ∧ s = t := by
  have letters := congrArg String.toList same
  simp only [nameOf, String.toList_append, List.append_assoc] at letters
  cases c <;> cases d <;> simp_all [mark, String.toList_inj]

theorem nameKey (set : InstructionSet) (c : Composition) (gate : String) :
    set.key (c.nameOf gate) = c.nameOf (set.key gate) := set.policy.keyComposed c gate

theorem nameMarked (set : InstructionSet) (c : Composition) (gate : String) :
    set.isComposition c (c.nameOf gate) = true := by
  rw [InstructionSet.isComposition, nameKey, List.isPrefixOf_iff_prefix, nameOf, String.append_assoc,
    String.toList_append]
  exact List.prefix_append _ _

end Composition

namespace Signature

def composedSpecs (s : Signature) : Composition → List String
  | .singleQubit => s.operands
  | .twoQubit => s.operands.flatMap fun spec => controlCodes.map fun control => control ++ spec

theorem memControlled {s : Signature} {spec : String} :
    spec ∈ s.composedSpecs .twoQubit ↔ ∃ control ∈ controlCodes, ∃ own ∈ s.operands, spec = control ++ own := by
  simp only [composedSpecs, List.mem_flatMap, List.mem_map]
  constructor
  · rintro ⟨own, operands, control, code, rfl⟩
    exact ⟨control, code, own, operands, rfl⟩
  · rintro ⟨control, code, own, operands, rfl⟩
    exact ⟨own, operands, control, code, rfl⟩

end Signature

namespace InstructionSet

def compositionBy (set : InstructionSet) (modifier : String) : Composition :=
  if set.isSingleQubitModifier modifier then .singleQubit else .twoQubit

theorem resolutionNameModified {ν : Type} (set : InstructionSet) (node : GateNode ν) (inner : Gate ν) :
    (Gate.modified node inner).resolutionName set = (set.compositionBy node.name).nameOf inner.terminalName := rfl

def signatures (set : InstructionSet) : List Signature := set.namedGates ++ set.nonGates.values

def Readable (set : InstructionSet) : Prop :=
  ∀ s ∈ set.signatures, ∀ spec ∈ s.operands, ∃ types, Ty.ofCodes spec = .ok types

def Unmarked (set : InstructionSet) : Prop := ∀ s ∈ set.signatures, ∀ c, set.isComposition c s.name = false

theorem readableIff {set : InstructionSet} :
    set.Readable ↔
      (set.signatures.all fun s => s.operands.all fun spec => (Ty.ofCodes spec).toOption.isSome) = true := by
  have one (spec : String) : (Ty.ofCodes spec).toOption.isSome = true ↔ ∃ types, Ty.ofCodes spec = .ok types := by
    cases Ty.ofCodes spec <;> simp [Except.toOption]
  simp only [Readable, List.all_eq_true, one]

instance (set : InstructionSet) : Decidable set.Readable := decidable_of_iff _ readableIff.symm

theorem unmarkedIff {set : InstructionSet} : set.Unmarked ↔
    (set.signatures.all fun s =>
      !set.isComposition .singleQubit s.name && !set.isComposition .twoQubit s.name) = true := by
  have both (name : String) : (∀ c, set.isComposition c name = false) ↔
      set.isComposition .singleQubit name = false ∧ set.isComposition .twoQubit name = false :=
    ⟨fun all => ⟨all _, all _⟩, fun all c => by cases c; exacts [all.1, all.2]⟩
  simp only [Unmarked, List.all_eq_true, Bool.and_eq_true, Bool.not_eq_true', both]

instance (set : InstructionSet) : Decidable set.Unmarked := decidable_of_iff _ unmarkedIff.symm

inductive Registers (set : InstructionSet) : String → String → InstructionKind → Prop where
  | named {s spec} (gate : s ∈ set.namedGates) (operands : spec ∈ s.operands) : Registers set s.name spec .namedGate
  | composed {s spec} (c : Composition) (gate : s ∈ set.singleQubitGates.values) (operands : spec ∈ s.composedSpecs c) :
      Registers set (c.nameOf s.name) spec (.composition c)
  | nonGate {s spec} (other : s ∈ set.nonGates.values) (operands : spec ∈ s.operands) :
      Registers set s.name spec .nonGate

theorem memOverloads {set : InstructionSet} {name spec : String} {kind : InstructionKind} :
    (name, spec, kind) ∈ set.overloads ↔ set.Registers name spec kind := by
  simp only [overloads, List.mem_append, List.mem_flatMap, List.mem_map, Prod.mk.injEq]
  constructor
  · rintro (((⟨s, gate, _, operands, rfl, rfl, rfl⟩ | ⟨s, gate, _, operands, rfl, rfl, rfl⟩) |
      ⟨s, gate, own, operands, control, code, rfl, rfl, rfl⟩) | ⟨s, other, _, operands, rfl, rfl, rfl⟩)
    · exact .named gate operands
    · exact .composed .singleQubit gate operands
    · exact .composed .twoQubit gate (Signature.memControlled.mpr ⟨control, code, own, operands, rfl⟩)
    · exact .nonGate other operands
  · intro registers
    cases registers with
    | named gate operands => exact .inl (.inl (.inl ⟨_, gate, _, operands, rfl, rfl, rfl⟩))
    | composed c gate operands =>
      cases c with
      | singleQubit => exact .inl (.inl (.inr ⟨_, gate, _, operands, rfl, rfl, rfl⟩))
      | twoQubit =>
        obtain ⟨control, code, own, listed, rfl⟩ := Signature.memControlled.mp operands
        exact .inl (.inr ⟨_, gate, own, listed, control, code, rfl, rfl, rfl⟩)
    | nonGate other operands => exact .inr ⟨_, other, _, operands, rfl, rfl, rfl⟩

theorem ofCodesOk {name spec : String} {kind : InstructionKind} {i : Instruction} :
    Instruction.ofCodes name spec kind = .ok i ↔ i.name = name ∧ i.kind = kind ∧ Ty.ofCodes spec = .ok i.operands := by
  obtain ⟨other, operands, sort⟩ := i
  simp only [Instruction.ofCodes, bindOk, pureOk, Instruction.mk.injEq]
  constructor
  · rintro ⟨types, read, rfl, rfl, rfl⟩
    exact ⟨rfl, rfl, read⟩
  · rintro ⟨rfl, rfl, read⟩
    exact ⟨operands, read, rfl, rfl, rfl⟩

section Instructions

variable {set : InstructionSet} {is : List Instruction}

theorem memInstructions (read : set.instructions = .ok is) {i : Instruction} :
    i ∈ is ↔ ∃ spec, set.Registers i.name spec i.kind ∧ Ty.ofCodes spec = .ok i.operands := by
  rw [memMapM read]
  constructor
  · rintro ⟨⟨name, spec, kind⟩, member, done⟩
    obtain ⟨rfl, rfl, operands⟩ := ofCodesOk.mp done
    exact ⟨spec, memOverloads.mp member, operands⟩
  · rintro ⟨spec, registers, operands⟩
    exact ⟨(i.name, spec, i.kind), memOverloads.mpr registers, ofCodesOk.mpr ⟨rfl, rfl, operands⟩⟩

theorem memSignatures {s : Signature} (gate : s ∈ set.singleQubitGates.values) : s ∈ set.signatures :=
  List.mem_append_left _ (List.mem_append_right _ gate)

theorem registersReadable (readable : set.Readable) {name spec : String} {kind : InstructionKind}
    (registers : set.Registers name spec kind) : ∃ types, Ty.ofCodes spec = .ok types := by
  cases registers with
  | named gate operands => exact readable _ (List.mem_append_left _ gate) _ operands
  | nonGate other operands => exact readable _ (List.mem_append_right _ other) _ operands
  | composed c gate operands =>
    cases c with
    | singleQubit => exact readable _ (memSignatures gate) _ operands
    | twoQubit =>
      obtain ⟨control, code, own, listed, rfl⟩ := Signature.memControlled.mp operands
      obtain ⟨t, first⟩ := controlRead code
      obtain ⟨types, rest⟩ := readable _ (memSignatures gate) _ listed
      exact ⟨[t] ++ types, (Ty.ofCodesAppend control own).mpr ⟨[t], types, first, rest, rfl⟩⟩

theorem instructionsReadable (readable : set.Readable) : ∃ is, set.instructions = .ok is := by
  apply mapMOk
  rintro ⟨name, spec, kind⟩ member
  obtain ⟨types, read⟩ := registersReadable readable (memOverloads.mp member)
  exact ⟨⟨name, types, kind⟩, ofCodesOk.mpr ⟨rfl, rfl, read⟩⟩

theorem registersComposed (unmarked : set.Unmarked) {name spec gate : String} {kind : InstructionKind} {c : Composition}
    (registers : set.Registers name spec kind) (same : set.key name = set.key (c.nameOf gate)) :
    ∃ s ∈ set.singleQubitGates.values, set.key s.name = set.key gate ∧ spec ∈ s.composedSpecs c := by
  have marked : set.isComposition c name = true := by
    rw [isComposition, same]
    exact Composition.nameMarked set c gate
  cases registers with
  | named gate _ => cases marked.symm.trans (unmarked _ (List.mem_append_left _ gate) c)
  | nonGate other _ => cases marked.symm.trans (unmarked _ (List.mem_append_right _ other) c)
  | @composed s _ d gate operands =>
    rw [Composition.nameKey, Composition.nameKey] at same
    obtain ⟨rfl, key⟩ := Composition.nameOfEq same
    exact ⟨s, gate, key, operands⟩

theorem registersOfComposed {s : Signature} {gate spec : String} {c : Composition}
    (member : s ∈ set.singleQubitGates.values) (same : set.key s.name = set.key gate)
    (operands : spec ∈ s.composedSpecs c) :
    set.Registers (c.nameOf s.name) spec (.composition c) ∧ set.key (c.nameOf s.name) = set.key (c.nameOf gate) := by
  refine ⟨.composed c member operands, ?_⟩
  rw [Composition.nameKey, Composition.nameKey, same]

end Instructions

def gateSpecs (set : InstructionSet) (gate : String) : List String :=
  (set.singleQubitGates.find? (set.key gate)).elim [] Signature.operands

section Gates

variable {set : InstructionSet} (keyed : set.Keyed)
include keyed

theorem isSingleQubitNamedGateIff {gate : String} :
    set.isSingleQubitNamedGate gate = true ↔ ∃ s ∈ set.singleQubitGates.values, set.key s.name = set.key gate :=
  keyed.singleQubitGates.contains

theorem memGateSpecs {gate spec : String} : spec ∈ set.gateSpecs gate ↔
    ∃ s ∈ set.singleQubitGates.values, set.key s.name = set.key gate ∧ spec ∈ s.operands := by
  have found {s : Signature} := keyed.singleQubitGates.find (k := set.key gate) (a := s)
  rw [gateSpecs]
  cases entry : set.singleQubitGates.find? (set.key gate) with
  | none =>
    simp only [entry, reduceCtorEq, false_iff, not_and] at found
    simp only [Option.elim_none, List.not_mem_nil, false_iff]
    rintro ⟨s, member, same, _⟩
    exact found member same
  | some s =>
    obtain ⟨member, same⟩ := found.mp entry
    constructor
    · exact fun operands => ⟨s, member, same, operands⟩
    · rintro ⟨other, listed, again, operands⟩
      cases entry.symm.trans (found.mpr ⟨listed, again⟩)
      exact operands

end Gates

end InstructionSet

namespace OverloadTable

def ofInstructions (policy : CasePolicy) (is : List Instruction) : OverloadTable Instruction :=
  (empty policy).addAll Instruction.name id Instruction.operands is

theorem memOfInstructions {policy : CasePolicy} {is : List Instruction} {name : String} {o : Overload Instruction} :
    o ∈ (ofInstructions policy is).overloads name ↔
      ∃ i ∈ is, policy.key i.name = policy.key name ∧ o = ⟨i, i.operands⟩ := by
  constructor
  · exact registeredOverload _ _ _
  · rintro ⟨i, member, same, rfl⟩
    rw [ofInstructions, overloadsAddAll]
    exact List.mem_append_right _ (List.mem_map.mpr ⟨i, List.mem_filter.mpr ⟨member, decide_eq_true same⟩, rfl⟩)

end OverloadTable

namespace InstructionSet

open OverloadTable (ofInstructions memOfInstructions)

theorem controlledTakes {s : Signature} {args : List Value} :
    (∃ spec ∈ s.composedSpecs .twoQubit, SpecTakes spec args) ↔
      ∃ control rest, args = control :: rest ∧ (SpecTakes "Q" [control] ∨ SpecTakes "V" [control]) ∧
        ∃ own ∈ s.operands, SpecTakes own rest := by
  have codes {control : Value} : (∃ code ∈ controlCodes, SpecTakes code [control]) ↔
      SpecTakes "Q" [control] ∨ SpecTakes "V" [control] := by simp [controlCodes]
  simp only [← codes]
  constructor
  · rintro ⟨_, listed, takes⟩
    obtain ⟨code, control, own, operands, rfl⟩ := Signature.memControlled.mp listed
    obtain ⟨xs, rest, rfl, front, back⟩ := (specTakesAppend code own args).mp takes
    obtain ⟨operand, rfl⟩ := controlTakes control front
    exact ⟨operand, rest, rfl, ⟨code, control, front⟩, own, operands, back⟩
  · rintro ⟨operand, rest, rfl, ⟨code, control, front⟩, own, operands, back⟩
    exact ⟨code ++ own, Signature.memControlled.mpr ⟨code, control, own, operands, rfl⟩,
      (specTakesAppend code own _).mpr ⟨[operand], rest, rfl, front, back⟩⟩

section Table

variable {set : InstructionSet} {is : List Instruction} (read : set.instructions = .ok is) (unmarked : set.Unmarked)
include read unmarked

theorem composedInstruction {i : Instruction} {c : Composition} {gate : String} (member : i ∈ is)
    (same : set.key i.name = set.key (c.nameOf gate)) :
    ∃ s ∈ set.singleQubitGates.values, set.key s.name = set.key gate ∧
      ∃ spec ∈ s.composedSpecs c, Ty.ofCodes spec = .ok i.operands := by
  obtain ⟨spec, registers, operands⟩ := (memInstructions read).mp member
  obtain ⟨s, gate, key, listed⟩ := registersComposed unmarked registers same
  exact ⟨s, gate, key, spec, listed, operands⟩

theorem composedTakes {c : Composition} {gate : String} {args : List Value} :
    (∃ found, (ofInstructions set.policy is).resolve (c.nameOf gate) args = .ok found) ↔
      ∃ s ∈ set.singleQubitGates.values, set.key s.name = set.key gate ∧
        ∃ spec ∈ s.composedSpecs c, SpecTakes spec args := by
  rw [OverloadTable.resolveSome]
  constructor
  · rintro ⟨_, registered, takes⟩
    obtain ⟨i, member, same, rfl⟩ := memOfInstructions.mp registered
    obtain ⟨s, gate, key, spec, listed, operands⟩ := composedInstruction read unmarked member same
    exact ⟨s, gate, key, spec, listed, i.operands, operands, takes⟩
  · rintro ⟨s, member, key, spec, listed, types, operands, takes⟩
    obtain ⟨registers, same⟩ := registersOfComposed member key listed
    have instruction : (⟨c.nameOf s.name, types, .composition c⟩ : Instruction) ∈ is :=
      (memInstructions read).mpr ⟨spec, registers, operands⟩
    exact ⟨⟨_, types⟩, memOfInstructions.mpr ⟨_, instruction, same, rfl⟩, takes⟩

theorem composedUnknown {c : Composition} {gate : String}
    (other : ∀ s ∈ set.singleQubitGates.values, set.key s.name ≠ set.key gate) :
    (ofInstructions set.policy is).contains (c.nameOf gate) = false := by
  rw [ofInstructions, OverloadTable.containsAddAll, Bool.eq_false_iff]
  intro known
  obtain ⟨i, member, same⟩ := List.any_eq_true.mp known
  obtain ⟨s, gate, key, _⟩ := composedInstruction read unmarked member (of_decide_eq_true same)
  exact other s gate key

end Table

def ComposedTakes (set : InstructionSet) (modifier gate : String) (args : List Value) : Prop :=
  set.isSingleQubitNamedGate gate = true ∧
    ((set.isSingleQubitModifier modifier = true ∧ ∃ spec ∈ set.gateSpecs gate, SpecTakes spec args) ∨
      (set.isSingleQubitModifier modifier = false ∧ ∃ control rest, args = control :: rest ∧
        (SpecTakes "Q" [control] ∨ SpecTakes "V" [control]) ∧ ∃ spec ∈ set.gateSpecs gate, SpecTakes spec rest))

theorem composedTakesIff {set : InstructionSet} (keyed : set.Keyed) {modifier gate : String} {args : List Value} :
    set.ComposedTakes modifier gate args ↔
      ∃ s ∈ set.singleQubitGates.values, set.key s.name = set.key gate ∧
        ∃ spec ∈ s.composedSpecs (set.compositionBy modifier), SpecTakes spec args := by
  rw [ComposedTakes, isSingleQubitNamedGateIff keyed, compositionBy]
  simp only [memGateSpecs keyed]
  cases set.isSingleQubitModifier modifier with
  | true =>
    simp only [Bool.true_eq_false, false_and, or_false, true_and, if_true, Signature.composedSpecs]
    constructor
    · rintro ⟨_, spec, ⟨s, member, same, listed⟩, takes⟩
      exact ⟨s, member, same, spec, listed, takes⟩
    · rintro ⟨s, member, same, spec, listed, takes⟩
      exact ⟨⟨s, member, same⟩, spec, ⟨s, member, same, listed⟩, takes⟩
  | false =>
    simp only [Bool.false_eq_true, false_and, false_or, true_and, if_false, controlledTakes]
    constructor
    · rintro ⟨_, control, rest, split, taken, spec, ⟨s, member, same, listed⟩, takes⟩
      exact ⟨s, member, same, control, rest, split, taken, spec, listed, takes⟩
    · rintro ⟨s, member, same, control, rest, split, taken, spec, listed, takes⟩
      exact ⟨⟨s, member, same⟩, control, rest, split, taken, spec, ⟨s, member, same, listed⟩, takes⟩

theorem composedNamesMeet {ν : Type} (edits : List Edit) (readable : (ofEdits edits).Readable)
    (unmarked : (ofEdits edits).Unmarked) :
    ∃ is, (ofEdits edits).instructions = .ok is ∧ ∀ (node : GateNode ν) (inner : Gate ν) (args : List Value),
      ((∃ found, (ofInstructions (ofEdits edits).policy is).resolve
          ((Gate.modified node inner).resolutionName (ofEdits edits)) args = .ok found) ↔
        (ofEdits edits).ComposedTakes node.name inner.terminalName args) ∧
      ((ofEdits edits).isSingleQubitNamedGate inner.terminalName = false →
        ∃ fault, (ofInstructions (ofEdits edits).policy is).resolve
            ((Gate.modified node inner).resolutionName (ofEdits edits)) args = .error fault ∧
          fault.kind = .nameResolution) := by
  have keyed := keyedOfEdits edits
  obtain ⟨is, read⟩ := instructionsReadable readable
  refine ⟨is, read, fun node inner args => ⟨?_, fun other => ?_⟩⟩
  · rw [resolutionNameModified, composedTakes read unmarked, composedTakesIff keyed]
  · have none : ∀ s ∈ (ofEdits edits).singleQubitGates.values,
        (ofEdits edits).key s.name ≠ (ofEdits edits).key inner.terminalName := by
      intro s member same
      cases other.symm.trans ((isSingleQubitNamedGateIff keyed).mpr ⟨s, member, same⟩)
    rw [resolutionNameModified]
    exact ⟨_, OverloadTable.resolveUnknown (composedUnknown read unmarked none), rfl⟩

def respelled : List Edit :=
  [.singleQubitGate "X" none ["B"], .twoQubitGate "CNOT" none ["QQ"], .modifier "Ctrl" none true,
    .singleQubitGate "x" none ["Q", "V"], .nonGate "reset" none [""], .casePolicy .insensitive]

def controlAndTarget : List Value :=
  [.reference 0 ⟨.scalar .qubit, true⟩, .reference 1 ⟨.array .qubit 2, true⟩]

theorem controlledRespelled :
    (ofEdits respelled).Readable ∧ (ofEdits respelled).Unmarked ∧
      (ofEdits respelled).isSingleQubitNamedGate "CNOT" = false ∧
      ∃ is, (ofEdits respelled).instructions = .ok is ∧
        (∃ found, (ofInstructions (ofEdits respelled).policy is).resolve "2q_X" controlAndTarget = .ok found) ∧
        ∃ fault, (ofInstructions (ofEdits respelled).policy is).resolve "2q_CNOT" controlAndTarget = .error fault ∧
          fault.kind = .nameResolution := by
  have readable : (ofEdits respelled).Readable := by decide +kernel
  have unmarked : (ofEdits respelled).Unmarked := by decide +kernel
  have other : (ofEdits respelled).isSingleQubitNamedGate "CNOT" = false := by decide +kernel
  have adds : (ofEdits respelled).isSingleQubitModifier "CTRL" = false := by decide +kernel
  have taken : (ofEdits respelled).ComposedTakes "CTRL" "X" controlAndTarget := by
    refine ⟨by decide +kernel, .inr ⟨adds, _, _, rfl, .inl ⟨_, rfl, by decide⟩,
      "V", by decide +kernel, _, rfl, by decide⟩⟩
  obtain ⟨is, read, meet⟩ := composedNamesMeet (ν := Value) respelled readable unmarked
  have controlled (gate : String) : (Gate.modified ⟨"CTRL", none, [], none⟩ (.named ⟨gate, none, [], none⟩) :
      Gate Value).resolutionName (ofEdits respelled) = Composition.twoQubit.nameOf gate := by
    rw [resolutionNameModified, compositionBy, adds]
    rfl
  obtain ⟨found, _⟩ := meet ⟨"CTRL", none, [], none⟩ (.named ⟨"X", none, [], none⟩) controlAndTarget
  obtain ⟨_, missed⟩ := meet ⟨"CTRL", none, [], none⟩ (.named ⟨"CNOT", none, [], none⟩) controlAndTarget
  rw [controlled] at found missed
  exact ⟨readable, unmarked, other, is, read, found.mpr taken, missed other⟩

end InstructionSet

end Cqasm
