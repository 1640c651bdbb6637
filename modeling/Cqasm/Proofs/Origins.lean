import Cqasm.Analysis.Program
import Cqasm.Proofs.Fallible
import Cqasm.Proofs.Overload

/-! Where the places that faults bring along come from. What the analysis itself finds wrong is placed by the program,
so a fault with a place of its own is one that a registered function has raised. -/
namespace Cqasm

/- A failure that waits for the program to place it. -/
def Placeless {α : Type} (r : Except Fault α) : Prop := ∀ fault, r = .error fault → fault.place = none

def OverloadTable.Raises (natives : OverloadTable Native) (fault : Fault) : Prop :=
  ∃ name, ∃ o ∈ natives.overloads name, ∃ args, o.tag args = .error fault

section Placeless

variable {α β : Type}

theorem placelessOk (a : α) : Placeless (.ok a) := by
  intro fault failed
  cases failed

theorem placelessError {fault : Fault} (none : fault.place = none) : Placeless (.error fault : Except Fault α) := by
  intro _ failed
  cases failed
  exact none

theorem Placeless.bind {x : Except Fault α} {f : α → Except Fault β} (first : Placeless x)
    (next : ∀ a, Placeless (f a)) : Placeless (x >>= f) := by
  intro fault failed
  rcases bindError.mp failed with here | ⟨a, _, later⟩
  · exact first fault here
  · exact next a fault later

theorem placelessIf {condition : Prop} [Decidable condition] {x y : Except Fault α} (yes : Placeless x)
    (no : Placeless y) : Placeless (if condition then x else y) := by
  split
  · exact yes
  · exact no

end Placeless

theorem Ty.extentPlaceless (t : Ty) : Placeless t.extent := by
  unfold extent
  exact placelessIf (placelessError rfl) (placelessOk _)

theorem OverloadTable.resolvePlaceless {α : Type} (t : OverloadTable α) (name : String) (args : List Value) :
    Placeless (t.resolve name args) := by
  unfold resolve
  split
  · exact placelessError rfl
  · split
    · exact placelessOk _
    · exact placelessError rfl

namespace Scope

theorem callPlaceless (s : Scope) (name : String) (args : List Value) : Placeless (s.call name args) :=
  (s.functions.resolvePlaceless name args).bind fun _ => placelessOk _

theorem evaluateRaises {s : Scope} {name : String} {args : List Value} {fault : Fault} {l : Location}
    (failed : s.evaluate name args = .error fault) (brought : fault.place = some l) :
    s.natives.Raises fault := by
  rcases bindError.mp failed with unresolved | ⟨⟨native, promoted⟩, resolved, raised⟩
  · cases (s.natives.resolvePlaceless name args fault unresolved).symm.trans brought
  · obtain ⟨o, registered, rfl, _⟩ := OverloadTable.resolvedOverload resolved
    exact ⟨name, o, registered, promoted, raised⟩

theorem resolveFunctionRaises {s : Scope} {name : String} {args : List Value} {fault : Fault} {l : Location}
    (failed : s.resolveFunction name args = .error fault) (brought : fault.place = some l) :
    s.natives.Raises fault := by
  unfold resolveFunction at failed
  split at failed
  · cases failed
  case h_2 found evaluated =>
    split at failed
    · cases (s.callPlaceless name args fault failed).symm.trans brought
    · cases failed
      exact evaluateRaises evaluated brought

end Scope

namespace ScopeStack

theorem resolveVariablePlaceless (s : ScopeStack) (name : String) : Placeless (s.resolveVariable name) := by
  unfold resolveVariable
  split
  · exact placelessOk _
  · exact placelessError rfl

theorem resolveInstructionPlaceless (s : ScopeStack) (name : String) (args : List Value) :
    Placeless (s.resolveInstruction name args) := by
  unfold resolveInstruction
  split
  · exact placelessOk _
  · exact placelessError rfl

end ScopeStack

theorem Gate.requireModifiablePlaceless {ν : Type} (set : InstructionSet) (g : Gate ν) :
    Placeless (g.requireModifiable set) := by
  cases g with
  | named node => exact placelessOk _
  | modified node inner => exact placelessIf (placelessError rfl) (placelessOk _)

namespace InstructionSet

theorem resolveParameterPlaceless (set : InstructionSet) (name : String) (parameter : Option Value) :
    Placeless (set.resolveParameter? name parameter) := by
  cases parameter with
  | none => exact placelessIf (placelessError rfl) (placelessOk _)
  | some v =>
    refine Placeless.bind ?_ fun _ => placelessOk _
    unfold resolveParameter
    split
    · exact placelessError rfl
    · refine placelessIf ?_ (placelessError rfl)
      split
      · exact placelessOk _
      · exact placelessError rfl

end InstructionSet

theorem Value.requireUniformQubitsPlaceless (operands : List Value) : Placeless (requireUniformQubits operands) := by
  unfold requireUniformQubits
  split
  · exact placelessOk _
  · split
    · exact placelessError rfl
    · exact placelessOk _

namespace Analysis

theorem listItemsPlaceless (vs : List Value) : Placeless (ListItem.ofValues vs) := by
  induction vs with
  | nil => exact placelessOk _
  | cons v rest ih =>
    refine Placeless.bind ?_ fun _ => ih.bind fun _ => placelessOk _
    unfold ListItem.ofValue
    split
    case h_4 => exact placelessError rfl
    all_goals exact placelessOk _

theorem initializationListPlaceless (vs : List Value) : Placeless (initializationList vs) :=
  (listItemsPlaceless vs).bind fun _ => placelessOk _

theorem indexablePlaceless (base : Value) : Placeless (indexable base) := by
  unfold indexable
  split
  case h_3 => exact placelessError rfl
  all_goals exact (Ty.extentPlaceless _).bind fun _ => placelessOk _

theorem constantIntPlaceless (v : Value) : Placeless (constantInt v) := by
  unfold constantInt
  split
  · exact placelessError rfl
  · split
    · exact placelessOk _
    · exact placelessError rfl

theorem singleIndexPlaceless (size index : Int) : Placeless (singleIndex size index) := by
  unfold singleIndex
  exact placelessIf (placelessError rfl) (placelessOk _)

theorem indexRangePlaceless (size first last : Int) : Placeless (indexRange size first last) := by
  unfold indexRange
  refine placelessIf (placelessError rfl) (placelessIf (placelessError rfl) ?_)
  exact placelessIf (placelessError rfl) (placelessOk _)

theorem requirePairingPlaceless (set : InstructionSet) (i : Instruction) (operands : List Value) :
    Placeless (requirePairing set i operands) := by
  unfold requirePairing Value.requirePairedBits
  exact placelessIf (placelessIf (placelessOk _) (placelessError rfl)) (placelessOk _)

theorem requireAssignablePlaceless (t : Ty) : Placeless (requireAssignable t) := by
  unfold requireAssignable
  exact placelessIf (placelessOk _) (placelessError rfl)

theorem coercePlaceless (v : Value) (target : Ty) : Placeless (coerce v target) := by
  unfold coerce
  split
  · exact placelessOk _
  · exact placelessError rfl

theorem declaredTypePlaceless (d : Tree.Declaration) : Placeless (declaredType d) := by
  unfold declaredType
  split
  · exact placelessOk _
  · exact placelessIf (placelessError rfl) (placelessOk _)

theorem checkVersionPlaceless (supported given : Version) : Placeless (checkVersion supported given) := by
  unfold checkVersion
  exact placelessIf (placelessError rfl) (placelessIf (placelessError rfl) (placelessOk _))

end Analysis

end Cqasm
