import Mathlib.Data.List.Basic
import Cqasm.Graph.WellFormed

/-! What occurs in an analysed program: the references and calls inside a value, the values of a statement,
and the statements at every depth together with the variables that the blocks around them declare. -/
namespace Cqasm

namespace Value

mutual

def references : Value → List Value
  | .const _ => []
  | .reference id type => [.reference id type]
  | .selection s => [.selection s]
  | .call _ arguments => referencesIn arguments

def referencesIn : List Value → List Value
  | [] => []
  | v :: vs => v.references ++ referencesIn vs

end

mutual

def calls : Value → List (RuntimeFunction × List Value)
  | .const _ | .reference _ _ | .selection _ => []
  | .call function arguments => (function, arguments) :: callsIn arguments

def callsIn : List Value → List (RuntimeFunction × List Value)
  | [] => []
  | v :: vs => v.calls ++ callsIn vs

end

def indices : Value → List Int
  | .selection s => s.indices
  | .const _ | .reference _ _ | .call _ _ => []

theorem memReferencesIn {r : Value} {vs : List Value} : r ∈ referencesIn vs ↔ ∃ v ∈ vs, r ∈ v.references := by
  induction vs with
  | nil => simp [referencesIn]
  | cons v vs ih => simp [referencesIn, ih]

theorem memCallsIn {c : RuntimeFunction × List Value} {vs : List Value} :
    c ∈ callsIn vs ↔ ∃ v ∈ vs, c ∈ v.calls := by
  induction vs with
  | nil => simp [callsIn]
  | cons v vs ih => simp [callsIn, ih]

end Value

def annotationValues (as : List (AnnotationItem Value)) : List Value := as.flatMap AnnotationItem.operands

namespace Gate

def nodes {ν : Type} : Gate ν → List (GateNode ν)
  | .named node => [node]
  | .modified node inner => node :: inner.nodes

def values (g : Gate Value) : List Value :=
  g.nodes.flatMap fun node => node.parameter.toList ++ annotationValues node.annotations

end Gate

namespace Graph

def GateInstruction.values (g : GateInstruction) : List Value :=
  g.gate.values ++ g.operands ++ annotationValues g.annotations

def NonGateInstruction.values (i : NonGateInstruction) : List Value :=
  i.operands ++ i.parameter.toList ++ annotationValues i.annotations

def Assignment.values (a : Assignment) : List Value := a.target :: a.value :: annotationValues a.annotations

namespace Statement

def values : Statement → List Value
  | .gate g => g.values
  | .nonGate i => i.values
  | .assign a => a.values
  | .block _ _ _ => []

/- `At visible root around s` says that `s` occurs in `root`. Where the blocks around `root` declare `visible`,
the blocks around `s` declare `around`. -/
inductive At : List Nat → Statement → List Nat → Statement → Prop where
  | here {visible s} : At visible s visible s
  | inside {visible ids statements location member around s}
      (found : member ∈ statements) (deeper : At (ids ++ visible) member around s) :
      At visible (.block ids statements location) around s

def Everywhere (Q : List Nat → Statement → Prop) (visible : List Nat) (root : Statement) : Prop :=
  ∀ around s, At visible root around s → Q around s

section Everywhere

variable {Q R : List Nat → Statement → Prop} {visible : List Nat}

theorem everywhereBlock {ids : List Nat} {statements : List Statement} {location : Option Location} :
    Everywhere Q visible (.block ids statements location) ↔
      Q visible (.block ids statements location) ∧ ∀ s ∈ statements, Everywhere Q (ids ++ visible) s := by
  constructor
  · intro holds
    exact ⟨holds _ _ .here, fun member found around s deeper => holds around s (.inside found deeper)⟩
  · rintro ⟨self, members⟩ around s occurs
    cases occurs with
    | here => exact self
    | inside found deeper => exact members _ found around s deeper

theorem everywhereGate {g : GateInstruction} : Everywhere Q visible (.gate g) ↔ Q visible (.gate g) :=
  ⟨fun holds => holds _ _ .here, fun self _ _ occurs => by cases occurs; exact self⟩

theorem everywhereNonGate {i : NonGateInstruction} : Everywhere Q visible (.nonGate i) ↔ Q visible (.nonGate i) :=
  ⟨fun holds => holds _ _ .here, fun self _ _ occurs => by cases occurs; exact self⟩

theorem everywhereAssign {a : Assignment} : Everywhere Q visible (.assign a) ↔ Q visible (.assign a) :=
  ⟨fun holds => holds _ _ .here, fun self _ _ occurs => by cases occurs; exact self⟩

theorem Everywhere.mono {others : List Nat} {root : Statement} (holds : Everywhere Q visible root)
    (wider : visible ⊆ others)
    (step : ∀ {inner outer s}, inner ⊆ outer → Q inner s → R outer s) : Everywhere R others root := by
  intro around s occurs
  induction occurs generalizing visible with
  | here => exact step wider (holds _ _ .here)
  | @inside others ids statements location member around s found deeper ih =>
    exact ih ((everywhereBlock.mp holds).2 member found)
      (List.append_subset.mpr ⟨List.subset_append_left _ _, List.Subset.trans wider (List.subset_append_right _ _)⟩)

end Everywhere

mutual

def declared : Statement → List Nat
  | .gate _ | .nonGate _ | .assign _ => []
  | .block ids statements _ => ids ++ declaredIn statements

def declaredIn : List Statement → List Nat
  | [] => []
  | s :: rest => s.declared ++ declaredIn rest

end

theorem declaredInAppend (front back : List Statement) :
    declaredIn (front ++ back) = declaredIn front ++ declaredIn back := by
  induction front with
  | nil => rfl
  | cons s rest ih => simp [declaredIn, ih]

end Statement

def Program.Has (p : Program) (around : List Nat) (s : Statement) : Prop :=
  Statement.At [] p.block.toStatement around s

end Graph

end Cqasm
