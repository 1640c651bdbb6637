import Cqasm.Proofs.Composition
import Cqasm.Proofs.Typing

/-! Forms of statements and kinds of instructions. Gates and other instructions are looked up by name in one table,
whatever the form of the statement, so the name alone decides about the kind of the instruction. The form decides
which check the operands go through. -/
namespace Cqasm

namespace InstructionSet

structure KindByName (set : InstructionSet) (i : Instruction) : Prop where
  kind : i.kind = set.kindOf i.name
  gate : i.kind.isGate = true ↔ set.isNonGate i.name = false
  nonGate : i.kind = .nonGate ↔ set.isNonGate i.name = true

end InstructionSet

open InstructionSet (KindByName)

namespace Graph

inductive Statement.ResolvedByName (set : InstructionSet) : Statement → Prop where
  | gate {g : GateInstruction} (name : g.instruction.name = g.gate.resolutionName set)
      (kind : KindByName set g.instruction)
      (modified : ∀ node inner, g.gate = .modified node inner →
        g.instruction.kind = .composition (set.compositionBy node.name))
      (uniform : ∀ v ∈ g.operands, ∀ w ∈ g.operands, v.type.isQuantum = true → w.type.isQuantum = true →
        v.addressed = w.addressed) : ResolvedByName set (.gate g)
  | nonGate {i : NonGateInstruction} (kind : KindByName set i.instruction)
      (paired : set.isMeasure i.instruction.name = true →
        totalAddressed Ty.isQuantum i.operands = totalAddressed Ty.isBitLike i.operands) :
      ResolvedByName set (.nonGate i)
  | assign {a : Assignment} : ResolvedByName set (.assign a)
  | block {ids ss location} : ResolvedByName set (.block ids ss location)

end Graph

namespace Analyzer

open Analysis

theorem standardKinds : InstructionSet.standard.instructions.toOption.all (·.all fun i =>
    i.kind = InstructionSet.standard.kindOf i.name ∧
      (i.kind.isGate = true ↔ InstructionSet.standard.isNonGate i.name = false) ∧
      (i.kind = .nonGate ↔ InstructionSet.standard.isNonGate i.name = true) ∧
      (InstructionSet.standard.isComposition .singleQubit i.name = true → i.kind = .composition .singleQubit) ∧
      (InstructionSet.standard.isComposition .twoQubit i.name = true → i.kind = .composition .twoQubit)) = true := by
  decide +kernel

theorem standardKind {name : String} {o : Overload Instruction}
    (registered : o ∈ standard.global.instructions.overloads name) :
    KindByName standard.instructionSet o.tag ∧
      ∀ c, standard.instructionSet.isComposition c o.tag.name = true → o.tag.kind = .composition c := by
  obtain ⟨ms, is, _, read, same⟩ := standardGlobal
  rw [same] at registered
  obtain ⟨i, member, _, rfl⟩ := OverloadTable.registeredOverload _ _ _ registered
  have kinds := standardKinds
  rw [read] at kinds
  obtain ⟨kind, gate, nonGate, single, two⟩ := of_decide_eq_true (List.all_eq_true.mp kinds i member)
  rw [standardSet]
  refine ⟨⟨kind, gate, nonGate⟩, fun c composed => ?_⟩
  cases c with
  | singleQubit => exact single composed
  | twoQubit => exact two composed

section Reached

variable {p : Tree.Program} {t : State} (reached : Reaches standard.instructionSet (standard.start p) t)
include reached

theorem reachedKind {name : String} {args ws : List Value} {i : Instruction}
    (resolved : t.scopes.resolveInstruction name args = .ok (i, ws)) :
    KindByName standard.instructionSet i ∧
      ∀ c, standard.instructionSet.isComposition c i.name = true → i.kind = .composition c := by
  obtain ⟨o, registered, rfl, _⟩ := OverloadTable.resolvedOverload (reachedInstruction reached resolved)
  exact standardKind registered

theorem modifiedKind {i : Tree.GateInstruction} {g : Graph.GateInstruction} {args : List Value}
    (origin : GateInstructionFrom standard.instructionSet t.scopes i g args)
    {node : GateNode Value} {inner : Gate Value}
    (modified : g.gate = .modified node inner) :
    g.instruction.kind = .composition (standard.instructionSet.compositionBy node.name) := by
  have name : g.instruction.name = (standard.instructionSet.compositionBy node.name).nameOf inner.terminalName := by
    rw [(standardResolved reached origin.resolved).1, modified]
    rfl
  apply (reachedKind reached origin.resolved).2
  rw [name]
  exact Composition.nameMarked _ _ _

end Reached

theorem formsResolvedByName (p : Tree.Program) : Graph.Statement.Everywhere
    (fun _ st => st.ResolvedByName standard.instructionSet) [] (standard.elaborate p).program.block.toStatement := by
  intro around st has
  have typed := standardStatement has
  cases keptStatement standardClosed.block has with
  | block => exact .block
  | made reached _ _ origin =>
    cases origin with
    | gate origin =>
      cases typed with
      | gate _ uniform _ =>
        exact .gate (standardResolved reached origin.resolved).1 (reachedKind reached origin.resolved).1
          (fun _ _ modified => modifiedKind reached origin modified) uniform
    | nonGate origin =>
      cases typed with
      | nonGate _ paired _ => exact .nonGate (reachedKind reached origin.resolved).1 paired
    | assign => exact .assign

end Analyzer

namespace Graph.Statement

def unpairedGate (set : InstructionSet) : Statement → Bool
  | .gate g => g.instruction.kind = .nonGate ∧ set.isMeasure g.instruction.name = true ∧
      totalAddressed Ty.isQuantum g.operands ≠ totalAddressed Ty.isBitLike g.operands
  | .nonGate _ | .assign _ | .block _ _ _ => false

def unevenNonGate : Statement → Bool
  | .nonGate i => i.instruction.kind.isGate = true ∧
      ∃ v ∈ i.operands, ∃ w ∈ i.operands, v.type.isQuantum = true ∧ w.type.isQuantum = true ∧ v.addressed ≠ w.addressed
  | .gate _ | .assign _ | .block _ _ _ => false

end Graph.Statement

namespace Analyzer

/- A measurement written as a gate, of three qubits into two bits, and a gate written as an instruction, on
registers of two and three qubits. -/
def crossedForms : Tree.Program where
  version := ⟨[3, 0]⟩
  versionLocation := none
  statements :=
    [.declare ⟨"q", none, .qubit, some 2, none, [], none⟩,
      .declare ⟨"r", none, .qubit, some 3, none, [], none⟩,
      .declare ⟨"b", none, .bit, some 2, none, [], none⟩,
      .gate ⟨.named ⟨"measure", none, [], none⟩, [.name "b" none, .name "r" none], [], none⟩,
      .nonGate ⟨"CNOT", none, [.name "q" none, .name "r" none], [], none⟩]

theorem crossedFormsKept :
    (standard.elaborate crossedForms).diagnostics = [] ∧
      (standard.elaborate crossedForms).program.block.statements.any (·.unpairedGate standard.instructionSet) = true ∧
      (standard.elaborate crossedForms).program.block.statements.any (·.unevenNonGate) = true := by
  decide +kernel

end Analyzer

end Cqasm
