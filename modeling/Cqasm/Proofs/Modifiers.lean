import Cqasm.Proofs.Composition
import Cqasm.Proofs.Correspondence

/-! Gates under modifiers in analysed programs. The check for modifiers looks one level down only, through the name of
what stands there. Made at every level, it leaves no way to put a modifier around anything but a single-qubit gate. -/
namespace Cqasm

namespace Gate

def modifiers {ν : Type} : Gate ν → List (GateNode ν)
  | .named _ => []
  | .modified node inner => node :: inner.modifiers

theorem ofModifiers {ν : Type} {g : Gate ν} {top : GateNode ν} {below : List (GateNode ν)}
    (chain : g.modifiers = top :: below) : ∃ inner, g = .modified top inner := by
  cases g with
  | named => cases chain
  | modified node inner =>
    cases chain
    exact ⟨inner, rfl⟩

theorem requireModifiableOk {ν : Type} {set : InstructionSet} {node : GateNode ν} {inner : Gate ν}
    (done : (Gate.modified node inner).requireModifiable set = .ok ()) : inner.isTwoQubit set = false := by
  rw [requireModifiable] at done
  split at done
  case isTrue => cases done
  case isFalse single => simpa using single

theorem singleOfModifiable {ν : Type} {set : InstructionSet} {node : GateNode ν} {inner : Gate ν}
    (single : (Gate.modified node inner).isTwoQubit set = false) : set.isSingleQubitModifier node.name = true := by
  cases modifier : set.isSingleQubitModifier node.name with
  | true => rfl
  | false =>
    have name : (Gate.modified node inner).resolutionName set = Composition.twoQubit.nameOf inner.terminalName := by
      rw [InstructionSet.resolutionNameModified, InstructionSet.compositionBy, modifier]
      rfl
    rw [isTwoQubit, name, InstructionSet.isTwoQubitGate, Composition.nameMarked, Bool.or_true] at single
    cases single

end Gate

namespace Analysis

theorem chainModifiable {set : InstructionSet} {scopes : ScopeStack} {tree : Gate Tree.Expr} {g : Gate Value}
    (made : GateFrom set scopes tree g) {top : GateNode Value} {below : List (GateNode Value)}
    (chain : g.modifiers = top :: below) :
    (∀ m ∈ below, set.isSingleQubitModifier m.name = true) ∧ set.isTwoQubitGate g.terminalName = false := by
  -- each level vouches for the level under it, and the last one for the named gate
  induction made generalizing top below with
  | named => cases chain
  | @modified node n tree inner _ _ modifiable ih =>
    cases chain
    have single := Gate.requireModifiableOk modifiable
    cases inner with
    | named m => exact ⟨by simp [Gate.modifiers], single⟩
    | modified m deeper =>
      obtain ⟨others, terminal⟩ := ih rfl
      exact ⟨List.forall_mem_cons.mpr ⟨Gate.singleOfModifiable single, others⟩, terminal⟩

theorem outermostResolved {set : InstructionSet} {scopes : ScopeStack} {tree : Gate Tree.Expr} {n : GateNode Value}
    {inner : Gate Value} (made : GateFrom set scopes tree (.modified n inner)) :
    ∃ args m ws, scopes.resolveModifier n.name args = .ok (m, ws) := by
  cases made with
  | modified here =>
    obtain ⟨given, m, ws, _, resolved, _⟩ := modifierParameterOk here.parameter
    exact ⟨given.toList, m, ws, here.name ▸ resolved⟩

end Analysis

namespace InstructionSet

theorem gateModifierOk {sig : ModifierSignature} {m : GateModifier} (read : gateModifier sig = .ok m) :
    m.name = sig.name ∧ m.twoQubit = sig.twoQubit ∧ m.param.isSome = sig.param.isSome := by
  obtain ⟨name, param, twoQubit⟩ := sig
  cases param with
  | none =>
    cases read
    exact ⟨rfl, rfl, rfl⟩
  | some code =>
    obtain ⟨type, _, made⟩ := bindOk.mp read
    cases pureOk.mp made
    exact ⟨rfl, rfl, rfl⟩

theorem isModifierIff {set : InstructionSet} (keyed : set.Keyed) {name : String} :
    set.isModifier name = true ↔ ∃ sig ∈ set.modifiers.values, set.key sig.name = set.key name :=
  keyed.modifiers.contains

theorem modifierSort {set : InstructionSet} {name : String} (known : set.isModifier name = true) :
    set.isTwoQubitModifier name = !set.isSingleQubitModifier name := by
  obtain ⟨m, found⟩ := Option.isSome_iff_exists.mp known
  simp [isTwoQubitModifier, isSingleQubitModifier, found]

theorem singleNotTwo {set : InstructionSet} {name : String} (single : set.isSingleQubitModifier name = true) :
    set.isTwoQubitModifier name = false := by
  have known : set.isModifier name = true := by
    cases found : set.modifier? name <;> simp_all [isSingleQubitModifier, isModifier]
  rw [modifierSort known, single]
  rfl

end InstructionSet

namespace Analyzer

open Analysis

def Registration.isData : Registration → Bool
  | .value _ _ | .native _ _ _ | .function _ => true
  | .instruction _ | .modifier _ => false

inductive OnlyDefaults : Analyzer → Prop where
  | empty (apiVersion : Version) (policy : CasePolicy) (edits : List InstructionSet.Edit) :
      OnlyDefaults (.empty apiVersion policy (.ofEdits edits))
  | register {a : Analyzer} (r : Registration) (data : r.isData = true) (before : OnlyDefaults a) :
      OnlyDefaults (a.register r)
  | defaults {a : Analyzer} (before : OnlyDefaults a) : OnlyDefaults a.addDefaults.1

theorem OnlyDefaults.configured {a : Analyzer} (only : a.OnlyDefaults) : a.Configured := by
  induction only with
  | empty => exact .empty _ _ _
  | register r _ _ ih => exact .register r ih
  | defaults _ ih => exact .defaults ih

structure FromSet (a : Analyzer) : Prop where
  keyed : a.instructionSet.Keyed
  modifiers : ∃ ms, a.global.modifiers =
      (OverloadTable.empty a.instructionSet.policy).addAll GateModifier.name id GateModifier.params ms ∧
    ∀ m ∈ ms, ∃ all, a.instructionSet.gateModifiers = .ok all ∧ m ∈ all
  instructions : ∃ is, a.global.instructions = OverloadTable.ofInstructions a.instructionSet.policy is ∧
    ∀ i ∈ is, ∃ all, a.instructionSet.instructions = .ok all ∧ i ∈ all

theorem fromSetEmpty (apiVersion : Version) (policy : CasePolicy) (edits : List InstructionSet.Edit) :
    FromSet (.empty apiVersion policy (.ofEdits edits)) := by
  have aligned : (Analyzer.empty apiVersion policy (.ofEdits edits)).instructionSet.Keyed ∧
      policy = (Analyzer.empty apiVersion policy (.ofEdits edits)).instructionSet.policy := by
    rw [Analyzer.empty]
    dsimp only
    split
    case isTrue same => exact ⟨InstructionSet.keyedOfEdits edits, same.symm⟩
    case isFalse => exact ⟨InstructionSet.keyedWithPolicy _ policy, rfl⟩
  exact ⟨aligned.1, ⟨[], congrArg OverloadTable.empty aligned.2, by simp⟩,
    ⟨[], congrArg OverloadTable.empty aligned.2, by simp⟩⟩

theorem fromSetDefaults {a : Analyzer} (fromSet : a.FromSet) : a.addDefaults.1.FromSet := by
  obtain ⟨keyed, ⟨ms, modifiers, known⟩, ⟨is, instructions, read⟩⟩ := fromSet
  obtain ⟨moreModifiers, moreInstructions, same, alsoKnown, alsoRead⟩ := addDefaultsEq a
  rw [same]
  refine ⟨keyed, ⟨ms ++ moreModifiers, ?_, List.forall_mem_append.mpr ⟨known, alsoKnown⟩⟩,
    ⟨is ++ moreInstructions, ?_, List.forall_mem_append.mpr ⟨read, alsoRead⟩⟩⟩
  · rw [modifyGlobal, defaults, modifiers]
    exact List.foldl_append.symm
  · rw [modifyGlobal, defaults, instructions]
    exact List.foldl_append.symm

theorem OnlyDefaults.fromSet {a : Analyzer} (only : a.OnlyDefaults) : a.FromSet := by
  induction only with
  | empty apiVersion policy edits => exact fromSetEmpty apiVersion policy edits
  | register r data _ ih =>
    cases r with
    | value | native | function => exact ⟨ih.keyed, ih.modifiers, ih.instructions⟩
    | instruction | modifier => cases data
  | defaults _ ih => exact fromSetDefaults ih

section FromSet

variable {a : Analyzer} (fromSet : a.FromSet)
include fromSet

theorem FromSet.modifierKnown {name : String} {args ws : List Value} {m : GateModifier}
    (resolved : a.global.modifiers.resolve name args = .ok (m, ws)) : a.instructionSet.isModifier name = true := by
  obtain ⟨ms, table, known⟩ := fromSet.modifiers
  obtain ⟨o, registered, _⟩ := OverloadTable.resolvedOverload resolved
  rw [table] at registered
  obtain ⟨own, member, same, _⟩ := OverloadTable.registeredOverload _ _ _ registered
  obtain ⟨all, read, listed⟩ := known own member
  obtain ⟨sig, entered, made⟩ := (memMapM read).mp listed
  rw [(InstructionSet.gateModifierOk made).1] at same
  exact (InstructionSet.isModifierIff fromSet.keyed).mpr ⟨sig, entered, same⟩

theorem FromSet.composedOperands (unmarked : a.instructionSet.Unmarked) {c : Composition} {gate : String}
    {args ws : List Value} {i : Instruction}
    (resolved : a.global.instructions.resolve (c.nameOf gate) args = .ok (i, ws)) :
    ∃ s ∈ a.instructionSet.singleQubitGates.values, a.instructionSet.key s.name = a.instructionSet.key gate ∧
      ∃ spec ∈ s.composedSpecs c, ws.length = spec.length := by
  obtain ⟨is, table, known⟩ := fromSet.instructions
  obtain ⟨o, registered, _, promoted⟩ := OverloadTable.resolvedOverload resolved
  rw [table] at registered
  obtain ⟨own, member, same, rfl⟩ := OverloadTable.memOfInstructions.mp registered
  obtain ⟨all, read, listed⟩ := known own member
  obtain ⟨s, single, key, spec, operands, codes⟩ := InstructionSet.composedInstruction read unmarked listed same
  exact ⟨s, single, key, spec, operands, (Value.promotedAllLength promoted).trans (Ty.ofCodesLength codes)⟩

end FromSet

end Analyzer

theorem Signature.composedLength {s : Signature} {spec : String} {c : Composition} (listed : spec ∈ s.composedSpecs c) :
    ∃ own ∈ s.operands, spec.length = own.length + if c = .twoQubit then 1 else 0 := by
  cases c with
  | singleQubit => exact ⟨spec, listed, rfl⟩
  | twoQubit =>
    obtain ⟨control, code, own, operands, rfl⟩ := memControlled.mp listed
    obtain ⟨t, read⟩ := controlRead code
    have one : 1 = control.length := Ty.ofCodesLength read
    exact ⟨own, operands, by rw [String.length_append, if_pos rfl, ← one, Nat.add_comm]⟩

structure Graph.GateInstruction.Disciplined (set : InstructionSet) (g : GateInstruction) (top : GateNode Value)
    (below : List (GateNode Value)) : Prop where
  gate : set.isSingleQubitNamedGate g.gate.terminalName = true
  others : ∀ m ∈ below, set.isSingleQubitModifier m.name = true
  outermost : set.isModifier top.name = true
  operands : ∃ spec ∈ set.gateSpecs g.gate.terminalName,
    g.operands.length = spec.length + if set.isTwoQubitModifier top.name then 1 else 0
  noneTwoQubit : ∀ m ∈ below, set.isTwoQubitModifier m.name = false
  notTwoQubit : set.isTwoQubitGate g.gate.terminalName = false

def Graph.Statement.modifierNames : Statement → List String
  | .gate g => g.gate.modifiers.map GateNode.name
  | .nonGate _ | .assign _ | .block _ _ _ => []

theorem InstructionSet.compositionAdds {set : InstructionSet} {name : String} (known : set.isModifier name = true) :
    (if set.compositionBy name = .twoQubit then 1 else 0) = if set.isTwoQubitModifier name then 1 else 0 := by
  rw [modifierSort known, compositionBy]
  cases set.isSingleQubitModifier name <;> rfl

namespace Analyzer

open Analysis

theorem modifierDiscipline {a : Analyzer} (only : a.OnlyDefaults) (unmarked : a.instructionSet.Unmarked)
    {p : Tree.Program} {around : List Nat} {g : Graph.GateInstruction}
    (kept : (a.elaborate p).program.Has around (.gate g)) {top : GateNode Value} {below : List (GateNode Value)}
    (chain : g.gate.modifiers = top :: below) : g.Disciplined a.instructionSet top below := by
  have fromSet := only.fromSet
  cases keptStatement only.configured.block kept with
  | made reached _ _ made =>
    cases made with
    | gate origin =>
      obtain ⟨others, terminal⟩ := chainModifiable origin.gate chain
      obtain ⟨inner, shape⟩ := Gate.ofModifiers chain
      obtain ⟨args, m, ws, modifier⟩ := outermostResolved (shape ▸ origin.gate)
      rw [reachedModifier reached] at modifier
      have known := fromSet.modifierKnown modifier
      have resolved := reachedInstruction reached origin.resolved
      have name : g.gate.resolutionName a.instructionSet =
          (a.instructionSet.compositionBy top.name).nameOf g.gate.terminalName := by
        rw [shape]
        rfl
      rw [name] at resolved
      obtain ⟨s, single, key, spec, listed, count⟩ := fromSet.composedOperands unmarked resolved
      obtain ⟨own, operands, length⟩ := Signature.composedLength listed
      exact {
        gate := (InstructionSet.isSingleQubitNamedGateIff fromSet.keyed).mpr ⟨s, single, key⟩
        others := others
        outermost := known
        operands := ⟨own, (InstructionSet.memGateSpecs fromSet.keyed).mpr ⟨s, single, key, operands⟩,
          by rw [count, length, InstructionSet.compositionAdds known]⟩
        noneTwoQubit := fun m member => InstructionSet.singleNotTwo (others m member)
        notTwoQubit := terminal }

def controlledPower : Tree.Program where
  version := ⟨[3, 0]⟩
  versionLocation := none
  statements :=
    [.declare ⟨"q", none, .qubit, some 2, none, [], none⟩,
      .declare ⟨"r", none, .qubit, some 2, none, [], none⟩,
      .gate ⟨.modified ⟨"ctrl", none, [], none⟩ (.modified ⟨"pow", some (.literal (.int 2) none), [], none⟩
        (.named ⟨"Rx", some (.literal (.bool true) none), [], none⟩)), [.name "q" none, .name "r" none], [], none⟩,
      .gate ⟨.modified ⟨"inv", none, [], none⟩ (.modified ⟨"ctrl", none, [], none⟩ (.named ⟨"X", none, [], none⟩)),
        [.name "q" none, .name "r" none], [], none⟩]

theorem controlledPowerKept :
    standard.OnlyDefaults ∧ standard.instructionSet.Unmarked ∧
      (standard.elaborate controlledPower).program.block.statements.map (·.modifierNames) = [["ctrl", "pow"]] ∧
      ∃ around g top below, (standard.elaborate controlledPower).program.Has around (.gate g) ∧
        g.gate.modifiers = top :: below ∧ top.name = "ctrl" ∧ g.Disciplined standard.instructionSet top below := by
  have only : standard.OnlyDefaults :=
    .defaults (InstructionSet.standardOfEdits ▸ .empty _ _ InstructionSet.standardEdits)
  have unmarked : standard.instructionSet.Unmarked := by
    rw [standardSet]
    decide +kernel
  have names : (standard.elaborate controlledPower).program.block.statements.map (·.modifierNames) =
      [["ctrl", "pow"]] := by decide +kernel
  refine ⟨only, unmarked, names, ?_⟩
  obtain ⟨st, listed, modifiers⟩ : ∃ st ∈ (standard.elaborate controlledPower).program.block.statements,
      st.modifierNames = ["ctrl", "pow"] := List.mem_map.mp (by rw [names]; exact List.mem_cons_self)
  cases st with
  | nonGate | assign | block => cases modifiers
  | gate g =>
    obtain ⟨top, below, chain, named, _⟩ := List.map_eq_cons_iff.mp modifiers
    have kept : (standard.elaborate controlledPower).program.Has _ (.gate g) := .inside listed .here
    exact ⟨_, g, top, below, kept, chain, named, modifierDiscipline only unmarked kept chain⟩

end Analyzer

end Cqasm
