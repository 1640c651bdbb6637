import Cqasm.Proofs.Coherence
import Cqasm.Proofs.Fallible

/-! Arrays written as lists. A list becomes an array of the narrowest kind that all its items can be promoted to, item
by item. It makes no difference whether the items are promoted before the list is built or the array afterwards. -/
namespace Cqasm

def Constant.elements : Constant → List Constant
  | .boolArray items => items.map .bool
  | .intArray items => items.map .int
  | .floatArray items => items.map .float
  | _ => []

namespace Analysis

open Cqasm.Tree (Expr)

inductive ListKind where
  | bool | int | float
  deriving DecidableEq

namespace ListKind

def rank : ListKind → Nat
  | .bool => 0
  | .int => 1
  | .float => 2

def element : ListKind → Element
  | .bool => .bool
  | .int => .int
  | .float => .float

def type (k : ListKind) : Ty := .ofScalar k.element.scalar

def array (k : ListKind) (n : Int) : Ty := ⟨.array k.element n, false⟩

theorem rankInjective {j k : ListKind} (same : j.rank = k.rank) : j = k := by
  cases j <;> cases k <;> simp_all [rank]

end ListKind

namespace ListItem

def kind : ListItem → ListKind
  | .bool _ => .bool
  | .int _ => .int
  | .float _ => .float

def constant : ListItem → Constant
  | .bool b => .bool b
  | .int i => .int i
  | .float x => .float x

def widened (k : ListKind) (item : ListItem) : ListItem :=
  match k with
  | .bool => .bool item.toBool
  | .int => .int item.toInt
  | .float => .float item.toFloat

theorem kindWidened (k : ListKind) (item : ListItem) : (item.widened k).kind = k := by
  cases k <;> rfl

theorem widenedTwice {j k : ListKind} {item : ListItem} (narrow : item.kind.rank ≤ j.rank) (wide : j.rank ≤ k.rank) :
    (item.widened j).widened k = item.widened k := by
  cases item <;> cases j <;> cases k <;>
    simp_all [kind, ListKind.rank, widened, toBool, toInt, toFloat, Number.floatOfIntOfBool]

theorem promoteItem (k : ListKind) (item : ListItem) : (Value.const item.constant).promote k.type =
    if item.kind.rank ≤ k.rank then some (.const (item.widened k).constant) else none := by
  cases item <;> cases k <;> rfl

theorem promotesItem {k : ListKind} {item : ListItem} :
    (Value.const item.constant).type.promotesTo k.type = true ↔ item.kind.rank ≤ k.rank := by
  rw [← Value.promoteIsSome, promoteItem]
  split
  case isTrue narrow => simpa using narrow
  case isFalse wide => simpa using wide

def widest (items : List ListItem) : ListKind :=
  if items.any isFloat then .float else if items.any isInt then .int else .bool

def arrayOf (k : ListKind) (items : List ListItem) : Constant :=
  match k with
  | .bool => .boolArray (items.map toBool)
  | .int => .intArray (items.map toInt)
  | .float => .floatArray (items.map toFloat)

theorem arrayWidest (items : List ListItem) : array items = arrayOf (widest items) items := by
  unfold array widest
  split
  · rfl
  · split <;> rfl

theorem widestCons (item : ListItem) (rest : List ListItem) :
    (widest (item :: rest)).rank = max item.kind.rank (widest rest).rank := by
  cases item <;> cases floats : rest.any isFloat <;> cases ints : rest.any isInt <;>
    simp [widest, floats, ints, isFloat, isInt, kind, ListKind.rank]

theorem widestLeast {k : ListKind} {items : List ListItem} :
    (∀ item ∈ items, item.kind.rank ≤ k.rank) ↔ (widest items).rank ≤ k.rank := by
  induction items with
  | nil => simp [widest, ListKind.rank]
  | cons item rest ih => rw [List.forall_mem_cons, ih, widestCons, Nat.max_le]

theorem widestUniform {k : ListKind} {items : List ListItem} (some : items ≠ [])
    (uniform : ∀ item ∈ items, item.kind = k) :
    widest items = k := by
  obtain ⟨item, rest, rfl⟩ := List.exists_cons_of_ne_nil some
  have narrow : (widest (item :: rest)).rank ≤ k.rank := by
    apply widestLeast.mp
    intro other member
    exact Nat.le_of_eq (congrArg ListKind.rank (uniform other member))
  have first : item.kind = k := uniform item List.mem_cons_self
  apply ListKind.rankInjective
  rw [widestCons, first] at narrow ⊢
  omega

theorem promoteEach {k : ListKind} {items : List ListItem} (narrow : (widest items).rank ≤ k.rank) :
    ∀ item ∈ items, (Value.const item.constant).promote k.type = some (.const (item.widened k).constant) := by
  intro item member
  rw [promoteItem, if_pos (widestLeast.mpr narrow item member)]

theorem arrayOfWidened (k : ListKind) (items : List ListItem) :
    arrayOf k (items.map (widened k)) = arrayOf k items := by
  cases k <;> simp [arrayOf, widened, toBool, toInt, toFloat, Function.comp_def]

theorem shapeArrayOf (k : ListKind) (items : List ListItem) :
    (arrayOf k items).shape = .array k.element items.length := by
  cases k <;> simp [arrayOf, Constant.shape, ListKind.element]

theorem elementsArrayOf (k : ListKind) (items : List ListItem) :
    (arrayOf k items).elements = items.map fun item => (item.widened k).constant := by
  cases k <;> simp [arrayOf, Constant.elements, widened, constant, Function.comp_def]

theorem convertsArrayOf {j k : ListKind} (wider : j.rank < k.rank) (items : List ListItem) {n : Int}
    (size : sizeAccepts n items.length = true) :
    (arrayOf j items).Converts (.array k.element n) (arrayOf k (items.map (widened j))) := by
  cases j with
  | bool =>
    have count : sizeAccepts n (items.map toBool).length = true := by simpa using size
    cases k with
    | bool => cases wider
    | int =>
      have converted := Constant.Converts.intsOfBools count
      simp only [arrayOf, List.map_map] at converted ⊢
      exact converted
    | float =>
      have converted := Constant.Converts.floatsOfBools count
      simp only [arrayOf, List.map_map] at converted ⊢
      exact converted
  | int =>
    have count : sizeAccepts n (items.map toInt).length = true := by simpa using size
    cases k with
    | bool | int => simp [ListKind.rank] at wider
    | float =>
      have converted := Constant.Converts.floatsOfInts count
      simp only [arrayOf, List.map_map] at converted ⊢
      exact converted
  | float => cases k <;> simp [ListKind.rank] at wider

theorem arrayOfTwice {j k : ListKind} {items : List ListItem} (narrow : ∀ item ∈ items, item.kind.rank ≤ j.rank)
    (wide : j.rank ≤ k.rank) : arrayOf k (items.map (widened j)) = arrayOf k items := by
  have twice : (items.map (widened j)).map (widened k) = items.map (widened k) := by
    rw [List.map_map]
    apply List.map_congr_left
    intro item member
    exact widenedTwice (narrow item member) wide
  rw [← arrayOfWidened k (items.map (widened j)), twice, arrayOfWidened]

theorem promoteArrayOf {j k : ListKind} {items : List ListItem} (narrow : ∀ item ∈ items, item.kind.rank ≤ j.rank)
    (wide : j.rank ≤ k.rank) {n : Int} (size : sizeAccepts n items.length = true) :
    (Value.const (arrayOf j items)).promote (k.array n) = some (.const (arrayOf k items)) := by
  rcases Nat.lt_or_eq_of_le wide with wider | same
  · have converts := convertsArrayOf wider items size
    rw [arrayOfTwice narrow wide] at converts
    exact Value.promoteConverted rfl (Constant.convertIff.mpr converts)
  · cases ListKind.rankInjective same
    have accepted : (j.array n).accepts (Value.const (arrayOf j items)).type = true := by
      simp [Ty.accepts, ListKind.array, Value.type, Constant.type, shapeArrayOf, Shape.accepts, size]
    simp [Value.promote, accepted]

theorem arrayAllWidened (k : ListKind) {items : List ListItem} (some : items ≠ []) :
    array (items.map (widened k)) = arrayOf k items := by
  have uniform : widest (items.map (widened k)) = k := by
    apply widestUniform (by simpa using some)
    intro item member
    obtain ⟨other, _, rfl⟩ := List.mem_map.mp member
    exact kindWidened k other
  rw [arrayWidest, uniform, arrayOfWidened]

theorem ofValueOk {v : Value} {item : ListItem} : ofValue v = .ok item ↔ v = .const item.constant := by
  constructor
  · intro read
    unfold ofValue at read
    split at read <;> cases read <;> rfl
  · intro same
    subst same
    cases item <;> rfl

theorem ofValueError {v : Value} (other : ∀ item : ListItem, v ≠ .const item.constant) :
    ofValue v = .error (.notListItem v.type) := by
  unfold ofValue
  split
  case h_1 b => exact absurd rfl (other (.bool b))
  case h_2 i => exact absurd rfl (other (.int i))
  case h_3 x => exact absurd rfl (other (.float x))
  case h_4 => rfl

theorem ofValuesItems (items : List ListItem) : ofValues (items.map fun item => .const item.constant) = .ok items := by
  induction items with
  | nil => rfl
  | cons item rest ih => rw [List.map_cons, ofValues, ofValueOk.mpr rfl, ih]; rfl

end ListItem

def IsItem (v : Value) : Prop := ∃ item : ListItem, v = .const item.constant

theorem itemsOf {values : List Value} (each : ∀ v ∈ values, IsItem v) :
    ∃ items : List ListItem, values = items.map fun item => .const item.constant := by
  induction values with
  | nil => exact ⟨[], rfl⟩
  | cons v vs ih =>
    obtain ⟨⟨item, rfl⟩, others⟩ := List.forall_mem_cons.mp each
    obtain ⟨items, rfl⟩ := ih others
    exact ⟨item :: items, rfl⟩

theorem initializationListItems (items : List ListItem) :
    initializationList (items.map fun item => .const item.constant) = .ok (.const (ListItem.array items)) := by
  rw [initializationList, ListItem.ofValuesItems]
  rfl

theorem initializationListOther {before after : List Value} {bad : Value} (items : ∀ v ∈ before, IsItem v)
    (other : ¬ IsItem bad) : initializationList (before ++ bad :: after) = .error (.notListItem bad.type) := by
  have refused : ListItem.ofValue bad = .error (.notListItem bad.type) :=
    ListItem.ofValueError fun item same => other ⟨item, same⟩
  have stopped : ListItem.ofValues (before ++ bad :: after) = .error (.notListItem bad.type) := by
    induction before with
    | nil => rw [List.nil_append, ListItem.ofValues, refused]; rfl
    | cons v vs ih =>
      obtain ⟨⟨item, rfl⟩, others⟩ := List.forall_mem_cons.mp items
      rw [List.cons_append, ListItem.ofValues, ListItem.ofValueOk.mpr rfl, ih others]
      rfl
  rw [initializationList, stopped]
  rfl

structure Listed (values : List Value) (kind : ListKind) (c : Constant) : Prop where
  shape : c.shape = .array kind.element values.length
  least (other : ListKind) : (∀ v ∈ values, v.type.promotesTo other.type = true) ↔ kind.rank ≤ other.rank
  elements : List.Forall₂ (fun v e => v.promote kind.type = some (.const e)) values c.elements

theorem listedItems (items : List ListItem) :
    Listed (items.map fun item => .const item.constant) (ListItem.widest items) (ListItem.array items) where
  shape := by rw [ListItem.arrayWidest, ListItem.shapeArrayOf, List.length_map]
  least other := by
    rw [List.forall_mem_map, ← ListItem.widestLeast]
    exact forall₂_congr fun item _ => ListItem.promotesItem
  elements := by
    rw [ListItem.arrayWidest, ListItem.elementsArrayOf, List.forall₂_map_left_iff, List.forall₂_map_right_iff,
      List.forall₂_same]
    exact ListItem.promoteEach (Nat.le_refl _)

theorem listPromoted {items : List ListItem} (some : items ≠ []) {k : ListKind}
    (narrow : (ListItem.widest items).rank ≤ k.rank) {n : Int} (size : sizeAccepts n items.length = true) :
    (Value.const (ListItem.array items)).promote (k.array n) =
      .some (.const (ListItem.array (items.map (ListItem.widened k)))) := by
  rw [ListItem.arrayAllWidened k some, ListItem.arrayWidest]
  exact ListItem.promoteArrayOf (ListItem.widestLeast.mpr (Nat.le_refl _)) narrow size

theorem firstOther {values : List Value} (other : ∃ v ∈ values, ¬ IsItem v) :
    ∃ before bad after, values = before ++ bad :: after ∧ (∀ v ∈ before, IsItem v) ∧ ¬ IsItem bad := by
  induction values with
  | nil => simp at other
  | cons v vs ih =>
    by_cases item : IsItem v
    · have later : ∃ w ∈ vs, ¬ IsItem w := by simpa [item] using other
      obtain ⟨before, bad, after, rfl, items, refused⟩ := ih later
      exact ⟨v :: before, bad, after, rfl, List.forall_mem_cons.mpr ⟨item, items⟩, refused⟩
    · exact ⟨[], v, vs, rfl, by simp, item⟩

theorem listEq {scopes : ScopeStack} {items : List Expr} {values : List Value}
    (analysed : expressions scopes items = .ok values) (location : Option Location) :
    expression scopes (.list items location) = placed location (unplaced (initializationList values)) := by
  rw [expression, analysed]
  rfl

theorem listsCommute (scopes : ScopeStack) (items : List Expr) (location : Option Location) :
    (∀ values, expressions scopes items = .ok values → (∀ v ∈ values, IsItem v) →
      ∃ kind c, expression scopes (.list items location) = .ok (.const c) ∧ Listed values kind c ∧
        (values ≠ [] → ∀ (wider : ListKind) (n : Int), (∀ v ∈ values, v.type.promotesTo wider.type = true) →
          n < 0 ∨ n = values.length →
            ∃ promoted w, List.Forall₂ (fun v p => v.promote wider.type = some p) values promoted ∧
              (Value.const c).promote (wider.array n) = some w ∧ initializationList promoted = .ok w ∧
              ∀ others place, expressions scopes others = .ok promoted →
                expression scopes (.list others place) = .ok w)) ∧
      (∀ values, expressions scopes items = .ok values → (∃ v ∈ values, ¬ IsItem v) →
        ∃ fault, expression scopes (.list items location) = .error ⟨fault, location⟩ ∧ fault.kind = .typing ∧
          ∃ bad ∈ values, ¬ IsItem bad ∧ fault = .notListItem bad.type) ∧
      ∀ d, expressions scopes items = .error d →
        expression scopes (.list items location) = .error (d.within location) := by
  refine ⟨?_, ?_, ?_⟩
  · intro values analysed each
    obtain ⟨own, rfl⟩ := itemsOf each
    refine ⟨_, _, ?_, listedItems own, ?_⟩
    · rw [listEq analysed, initializationListItems]
      rfl
    intro some wider n promotes size
    have narrow := ((listedItems own).least wider).mp promotes
    have count : sizeAccepts n own.length = true := by simpa [sizeAccepts] using size
    have built := initializationListItems (own.map (ListItem.widened wider))
    refine ⟨_, _, ?_, listPromoted (by simpa using some) narrow count, built, ?_⟩
    · rw [List.map_map, List.forall₂_map_left_iff, List.forall₂_map_right_iff, List.forall₂_same]
      exact ListItem.promoteEach narrow
    · intro others place analysedToo
      rw [listEq analysedToo, built]
      rfl
  · intro values analysed other
    obtain ⟨before, bad, after, rfl, items, refused⟩ := firstOther other
    refine ⟨.notListItem bad.type, ?_, rfl, bad, by simp, refused, rfl⟩
    rw [listEq analysed, initializationListOther items refused]
    rfl
  · intro d failed
    rw [expression, failed]
    rfl

def truthAndCount : List Expr := [.literal (.bool true) none, .literal (.int 7) none]

def noNames : ScopeStack := .ofGlobal (.empty .sensitive) .sensitive

theorem truthAndCountListed :
    expressions noNames truthAndCount = .ok [.const (.bool true), .const (.int 7)] ∧
      ∃ kind c, expression noNames (.list truthAndCount none) = .ok (.const c) ∧
        Listed [.const (.bool true), .const (.int 7)] kind c ∧
        ∃ promoted w,
          List.Forall₂ (fun v p => Value.promote v .float = some p) [.const (.bool true), .const (.int 7)] promoted ∧
            (Value.const c).promote ⟨.array .float unconstrained, false⟩ = some w ∧
            initializationList promoted = .ok w := by
  have analysed : expressions noNames truthAndCount = .ok [.const (.bool true), .const (.int 7)] := rfl
  have each : ∀ v ∈ [Value.const (.bool true), .const (.int 7)], IsItem v := by
    intro v member
    simp only [List.mem_cons, List.not_mem_nil, or_false] at member
    rcases member with same | same
    · exact ⟨.bool true, same⟩
    · exact ⟨.int 7, same⟩
  have promotes : ∀ v ∈ [Value.const (.bool true), .const (.int 7)], v.type.promotesTo ListKind.float.type = true := by
    intro v member
    simp only [List.mem_cons, List.not_mem_nil, or_false] at member
    rcases member with same | same <;> subst same <;> rfl
  obtain ⟨kind, c, made, listed, commutes⟩ := (listsCommute noNames truthAndCount none).1 _ analysed each
  obtain ⟨promoted, w, first, last, built, _⟩ := commutes (by simp) .float unconstrained promotes (.inl (by decide))
  exact ⟨analysed, kind, c, made, listed, promoted, w, first, last, built⟩

end Analysis

end Cqasm
