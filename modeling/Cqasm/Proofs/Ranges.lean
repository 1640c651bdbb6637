import Mathlib.Data.List.Induction
import Mathlib.Data.List.ReduceOption
import Mathlib.Data.Prod.Lex
import Mathlib.Order.Bounds.Basic
import Cqasm.Graph.Basic

/-! The order of positions, and the ranges between them. Growing a location by one range after another gives the least
range around all of them, whatever their order. -/
namespace Cqasm

namespace Position

instance : LinearOrder Position :=
  LinearOrder.lift' (fun p => toLex (p.line, p.column)) fun p q same => by
    obtain ⟨line, column⟩ := p
    obtain ⟨line', column'⟩ := q
    cases toLex.injective same
    rfl

theorem leIff {p q : Position} : p ≤ q ↔ p.line < q.line ∨ p.line = q.line ∧ p.column ≤ q.column :=
  Prod.Lex.toLex_le_toLex

theorem beforeIff {p q : Position} : p.Before q ↔ p < q :=
  (Prod.Lex.toLex_lt_toLex (x := (p.line, p.column)) (y := (q.line, q.column))).symm

theorem earlierMin (p q : Position) : p.earlier q = min p q := by
  unfold earlier
  split
  case isTrue before => exact (min_eq_right (beforeIff.mp before).le).symm
  case isFalse other => exact (min_eq_left (not_lt.mp (mt beforeIff.mpr other))).symm

theorem laterMax (p q : Position) : p.later q = max p q := by
  unfold later
  split
  case isTrue before => exact (max_eq_right (beforeIff.mp before).le).symm
  case isFalse other => exact (max_eq_left (not_lt.mp (mt beforeIff.mpr other))).symm

end Position

namespace Location

def Ordered (l : Location) : Prop := l.first ≤ l.last

structure Covers (l other : Location) : Prop where
  first : l.first ≤ other.first
  last : other.last ≤ l.last

def range (l : Location) : Position × Position := (l.first, l.last)

structure Hull (ls : List Location) (l : Location) : Prop where
  first : IsLeast {p | ∃ m ∈ ls, m.first = p} l.first
  last : IsGreatest {p | ∃ m ∈ ls, m.last = p} l.last

variable {l m r : Location} {ls others : List Location}

theorem Covers.refl (l : Location) : l.Covers l := ⟨le_refl _, le_refl _⟩

theorem Covers.trans (outer : r.Covers l) (inner : l.Covers m) : r.Covers m :=
  ⟨outer.first.trans inner.first, inner.last.trans outer.last⟩

theorem coveringFirst (ordered : m.Ordered) : (l.covering m).first = min l.first m.first := by
  change (Position.earlier (l.first.earlier m.first) m.last) = _
  rw [Position.earlierMin, Position.earlierMin, min_assoc, min_eq_left (a := m.first) ordered]

theorem coveringLast (ordered : m.Ordered) : (l.covering m).last = max l.last m.last := by
  change (Position.later (l.last.later m.first) m.last) = _
  rw [Position.laterMax, Position.laterMax, max_assoc, max_eq_right (a := m.first) ordered]

namespace Hull

theorem covers (hull : Hull ls l) (member : m ∈ ls) : l.Covers m :=
  ⟨hull.first.2 ⟨m, member, rfl⟩, hull.last.2 ⟨m, member, rfl⟩⟩

theorem least (hull : Hull ls l) (around : ∀ m ∈ ls, r.Covers m) : r.Covers l := by
  obtain ⟨⟨m, begins, first⟩, _⟩ := hull.first
  obtain ⟨⟨n, ends, last⟩, _⟩ := hull.last
  exact ⟨first ▸ (around m begins).first, last ▸ (around n ends).last⟩

theorem ordered (hull : Hull ls l) (each : ∀ m ∈ ls, m.Ordered) : l.Ordered := by
  obtain ⟨⟨m, begins, first⟩, _⟩ := hull.first
  have ends : m.last ≤ l.last := (hull.covers begins).last
  rw [Ordered, ← first]
  exact (each m begins).trans ends

theorem sameMembers (hull : Hull ls l) (same : ∀ m, m ∈ others ↔ m ∈ ls) : Hull others l := by
  have ⟨first, last⟩ := hull
  exact ⟨by simpa only [same] using first, by simpa only [same] using last⟩

theorem unique (hull : Hull ls l) (other : Hull ls m) : l.range = m.range :=
  Prod.ext (hull.first.unique other.first) (hull.last.unique other.last)

theorem nonempty (hull : Hull ls l) : ls ≠ [] := by
  obtain ⟨⟨m, member, _⟩, _⟩ := hull.first
  exact List.ne_nil_of_mem member

theorem one (l : Location) : Hull [l] l := by
  constructor <;> simp [IsLeast, IsGreatest, lowerBounds, upperBounds]

theorem covering (hull : Hull ls l) (ordered : m.Ordered) : Hull (ls ++ [m]) (l.covering m) := by
  have added (f : Location → Position) : {p | ∃ n ∈ ls ++ [m], f n = p} = insert (f m) {p | ∃ n ∈ ls, f n = p} := by
    ext p
    simp [or_and_right, exists_or, or_comm, eq_comm]
  refine ⟨?_, ?_⟩
  · rw [added, coveringFirst ordered, min_comm]
    exact hull.first.insert m.first
  · rw [added, coveringLast ordered, max_comm]
    exact hull.last.insert m.last

end Hull

def hullOf (places : List (Option Location)) : Option Location := places.foldl Graph.Block.hull none

def Around (ls : List Location) : Option Location → Prop
  | none => ls = []
  | some l => Hull ls l

namespace Around

variable {grown other : Option Location}

theorem absent (around : Around ls grown) : grown = none ↔ ls = [] := by
  cases grown with
  | none => exact iff_of_true rfl around
  | some l => exact iff_of_false (Option.some_ne_none l) (Hull.nonempty around)

theorem covers (around : Around ls grown) (member : m ∈ ls) : ∃ l, grown = some l ∧ l.Covers m := by
  cases grown with
  | none =>
    have nothing : ls = [] := around
    rw [nothing] at member
    cases member
  | some l => exact ⟨l, rfl, Hull.covers around member⟩

theorem sameMembers (around : Around ls grown) (same : ∀ m, m ∈ ls ↔ m ∈ others) : Around others grown := by
  cases grown with
  | none =>
    have nothing : ls = [] := around
    exact List.eq_nil_iff_forall_not_mem.mpr fun m member => by simpa [nothing] using (same m).mpr member
  | some l => exact Hull.sameMembers around fun m => (same m).symm

theorem unique (around : Around ls grown) (again : Around ls other) : grown.map range = other.map range := by
  cases grown with
  | none => rw [again.absent.mpr (around.absent.mp rfl)]
  | some l =>
    cases other with
    | none => exact absurd again (Hull.nonempty around)
    | some m => exact congrArg some (Hull.unique around again)

end Around

theorem aroundStep {grown place : Option Location} (around : Around ls grown) (ordered : ∀ m ∈ place, m.Ordered) :
    Around (ls ++ place.toList) (Graph.Block.hull grown place) := by
  cases place with
  | none =>
    rw [Option.toList_none, List.append_nil]
    cases grown <;> exact around
  | some m =>
    cases grown with
    | none =>
      have nothing : ls = [] := around
      rw [nothing]
      exact Hull.one m
    | some l => exact Hull.covering around (ordered m rfl)

theorem aroundAll {places : List (Option Location)} (ordered : ∀ m, some m ∈ places → m.Ordered) :
    Around places.reduceOption (hullOf places) := by
  induction places using List.reverseRecOn with
  | nil => rfl
  | append_singleton places place ih =>
    have earlier := ih fun m member => ordered m (List.mem_append_left _ member)
    have here : ∀ m ∈ place, m.Ordered := fun m known =>
      ordered m (List.mem_append_right _ (by simp [Option.mem_def.mp known]))
    have last : (places ++ [place]).reduceOption = places.reduceOption ++ place.toList := by
      cases place <;> simp [List.reduceOption_append]
    rw [last, hullOf, List.foldl_append]
    exact aroundStep earlier here

theorem hullAnyOrder {places others : List (Option Location)} (ordered : ∀ m, some m ∈ places → m.Ordered)
    (same : others.Perm places) : (hullOf others).map range = (hullOf places).map range := by
  have around := aroundAll fun m (member : some m ∈ others) => ordered m (same.mem_iff.mp member)
  refine (around.sameMembers fun m => ?_).unique (aroundAll ordered)
  rw [List.reduceOption_mem_iff, List.reduceOption_mem_iff, same.mem_iff]

end Location

end Cqasm
