import Mathlib.Data.List.Induction
import Cqasm.Proofs.Keyed

/-! Changing the case policy of an instruction set. A set that is brought under a policy after everything has been added
is the set that had the policy from the start, as long as no spelling was added twice. Names that the policy does not
tell apart meet in both, where the first sets the place and the last the signature. -/
namespace Cqasm

namespace Table

variable {α : Type} {key : α → String}

def ofList (key : α → String) (xs : List α) : Table α := xs.foldl (fun t a => t.insert (key a) a) .empty

/- Data whose keys meet stand at the place of the first of them, which holds the last. -/
structure Merges (key : α → String) (xs : List α) (t : Table α) : Prop where
  places : t.entries.map Prod.fst = (xs.map key).eraseDups
  data : ∀ k, t.find? k = xs.reverse.find? fun a => key a == k

theorem ofListConcat (xs : List α) (x : α) : ofList key (xs ++ [x]) = (ofList key xs).insert (key x) x := by
  simp only [ofList, List.foldl_append, List.foldl_cons, List.foldl_nil]

theorem alteredAbsent {k : String} {change : Option α → α} {entries : List (String × α)}
    (absent : k ∉ entries.map Prod.fst) : alterEntries k change entries = entries ++ [(k, change none)] := by
  induction entries with
  | nil => rfl
  | cons head rest ih =>
    obtain ⟨other, a⟩ := head
    rw [alterEntries, if_neg (List.ne_of_not_mem_cons absent), ih (List.not_mem_of_not_mem_cons absent),
      List.cons_append]

theorem ofListDistinct {xs : List α} (once : (xs.map key).Nodup) : (ofList key xs).values = xs := by
  have entries : (ofList key xs).entries = xs.map fun a => (key a, a) := by
    -- the keys so far are those of the data so far, so each new key goes to the end
    induction xs using List.reverseRecOn with
    | nil => rfl
    | append_singleton xs x ih =>
      rw [List.map_append, List.map_singleton, List.nodup_append] at once
      have absent : key x ∉ (xs.map fun a => (key a, a)).map Prod.fst := by
        rw [List.map_map]
        exact fun member => once.2.2 _ member _ (List.mem_singleton_self _) rfl
      rw [ofListConcat, insert, alter, ih once.1, alteredAbsent absent, List.map_append, List.map_singleton]
  rw [values, entries, List.map_map]
  exact List.map_id xs

theorem ofListMerges (xs : List α) : (ofList key xs).Merges key xs := by
  induction xs using List.reverseRecOn with
  | nil => exact ⟨rfl, fun _ => rfl⟩
  | append_singleton xs x ih =>
    rw [ofListConcat]
    refine ⟨?_, fun k => ?_⟩
    · rw [insert, alter, alteredKeys, ih.places, List.map_append, List.map_singleton, List.eraseDups_append]
      by_cases known : key x ∈ xs.map key
      · have none : List.removeAll [key x] (xs.map key) = [] := by simp [List.removeAll, List.mem_map.mp known]
        simp [known, none]
      · have new : List.removeAll [key x] (xs.map key) = [key x] := by simpa [List.removeAll] using known
        rw [if_neg (mt List.mem_eraseDups.mp known), new, List.eraseDups_cons, List.filter_nil, List.eraseDups_nil]
    · rw [findInsert, List.reverse_append, List.reverse_singleton, List.singleton_append, List.find?_cons, ih.data]
      by_cases same : k = key x
      · simp [same]
      · have other : (key x == k) = false := by simpa using Ne.symm same
        rw [if_neg same, other]

theorem insertValues (t : Table α) (k : String) (a : α) : (t.insert k a).values ⊆ t.values ++ [a] := by
  intro x member
  obtain ⟨e, here, rfl⟩ := List.mem_map.mp member
  rcases memAltered here with old | ⟨_, rfl⟩
  · exact List.mem_append_left _ (List.mem_map_of_mem old)
  · exact List.mem_append_right _ (List.mem_singleton_self a)

theorem ofListValues (xs : List α) : (ofList key xs).values ⊆ xs := by
  induction xs using List.reverseRecOn with
  | nil => exact List.Subset.refl _
  | append_singleton xs x ih =>
    rw [ofListConcat]
    exact List.Subset.trans (insertValues _ _ _) (List.append_subset.mpr
      ⟨List.Subset.trans ih (List.subset_append_left _ _), List.subset_append_right _ _⟩)

end Table

namespace InstructionSet

namespace Edit

def singleQubitGate? : Edit → Option Signature
  | .singleQubitGate name param operands => some ⟨name, param, operands, false⟩
  | _ => none

def twoQubitGate? : Edit → Option Signature
  | .twoQubitGate name param operands => some ⟨name, param, operands, false⟩
  | _ => none

def nonGate? : Edit → Option Signature
  | .nonGate name param operands => some ⟨name, param, operands, false⟩
  | .measure name param operands => some ⟨name, param, operands, true⟩
  | _ => none

def modifier? : Edit → Option ModifierSignature
  | .modifier name param twoQubit => some ⟨name, param, twoQubit⟩
  | _ => none

end Edit

structure AddsOnce (edits : List Edit) : Prop where
  additions : ∀ policy, .casePolicy policy ∉ edits
  singleQubitGates : ((edits.filterMap Edit.singleQubitGate?).map Signature.name).Nodup
  twoQubitGates : ((edits.filterMap Edit.twoQubitGate?).map Signature.name).Nodup
  nonGates : ((edits.filterMap Edit.nonGate?).map Signature.name).Nodup
  modifiers : ((edits.filterMap Edit.modifier?).map ModifierSignature.name).Nodup

def ofAdditions (policy : CasePolicy) (edits : List Edit) : InstructionSet where
  policy := policy
  singleQubitGates := .ofList (fun s => policy.key s.name) (edits.filterMap Edit.singleQubitGate?)
  twoQubitGates := .ofList (fun s => policy.key s.name) (edits.filterMap Edit.twoQubitGate?)
  nonGates := .ofList (fun s => policy.key s.name) (edits.filterMap Edit.nonGate?)
  modifiers := .ofList (fun m => policy.key m.name) (edits.filterMap Edit.modifier?)

theorem additionStep (policy : CasePolicy) (edits : List Edit) {e : Edit} (addition : ∀ other, e ≠ .casePolicy other) :
    (ofAdditions policy edits).edit e = ofAdditions policy (edits ++ [e]) := by
  cases e with
  | casePolicy other => exact absurd rfl (addition other)
  | singleQubitGate | twoQubitGate | nonGate | measure | modifier =>
    simp [edit, ofAdditions, addSingleQubitGate, addTwoQubitGate, addNonGate, addMeasure, addModifier, key,
      Edit.singleQubitGate?, Edit.twoQubitGate?, Edit.nonGate?, Edit.modifier?, Table.ofListConcat, List.filterMap_cons]

theorem additionsRun (policy : CasePolicy) {edits : List Edit} (additions : ∀ other, .casePolicy other ∉ edits) :
    edits.foldl edit (ofAdditions policy []) = ofAdditions policy edits := by
  induction edits using List.reverseRecOn with
  | nil => rfl
  | append_singleton edits e ih =>
    have earlier : ∀ other, .casePolicy other ∉ edits := fun other member =>
      additions other (List.mem_append_left _ member)
    have addition : ∀ other, e ≠ .casePolicy other := fun other same =>
      additions other (List.mem_append_right _ (same ▸ List.mem_singleton_self e))
    rw [List.foldl_append, ih earlier]
    exact additionStep policy edits addition

theorem rekeyOfList {α : Type} (policy : CasePolicy) (name : α → String) {xs : List α} (once : (xs.map name).Nodup) :
    rekey policy name (.ofList name xs) = .ofList (fun a => policy.key (name a)) xs := by
  rw [rekey, Table.ofListDistinct once]
  rfl

theorem additionsRekeyed (policy : CasePolicy) {edits : List Edit} (once : AddsOnce edits) :
    (ofAdditions .sensitive edits).withPolicy policy = ofAdditions policy edits := by
  simp only [withPolicy, ofAdditions, CasePolicy.keySensitive, rekeyOfList policy _ once.singleQubitGates,
    rekeyOfList policy _ once.twoQubitGates, rekeyOfList policy _ once.nonGates, rekeyOfList policy _ once.modifiers]

structure AddedBy (edits : List Edit) (set : InstructionSet) : Prop where
  singleQubitGates : set.singleQubitGates.values ⊆ edits.filterMap Edit.singleQubitGate?
  twoQubitGates : set.twoQubitGates.values ⊆ edits.filterMap Edit.twoQubitGate?
  nonGates : set.nonGates.values ⊆ edits.filterMap Edit.nonGate?
  modifiers : set.modifiers.values ⊆ edits.filterMap Edit.modifier?

theorem AddedBy.later {edits : List Edit} {set : InstructionSet} (added : AddedBy edits set) (e : Edit) :
    AddedBy (edits ++ [e]) set := by
  have more {α : Type} (read : Edit → Option α) : edits.filterMap read ⊆ (edits ++ [e]).filterMap read := by
    rw [List.filterMap_append]
    exact List.subset_append_left _ _
  exact ⟨List.Subset.trans added.singleQubitGates (more _), List.Subset.trans added.twoQubitGates (more _),
    List.Subset.trans added.nonGates (more _), List.Subset.trans added.modifiers (more _)⟩

theorem insertedBy {α : Type} {edits : List Edit} {e : Edit} {read : Edit → Option α} {t : Table α} {a : α}
    (before : t.values ⊆ edits.filterMap read) (last : read e = some a) (k : String) :
    (t.insert k a).values ⊆ (edits ++ [e]).filterMap read := by
  rw [List.filterMap_append, List.filterMap_cons_some last, List.filterMap_nil]
  exact List.Subset.trans (t.insertValues k a)
    (List.append_subset.mpr ⟨List.Subset.trans before (List.subset_append_left _ _), List.subset_append_right _ _⟩)

theorem addedStep {edits : List Edit} {set : InstructionSet} (added : AddedBy edits set) (e : Edit) :
    AddedBy (edits ++ [e]) (set.edit e) := by
  have same := added.later e
  cases e with
  | singleQubitGate => exact { same with singleQubitGates := insertedBy added.singleQubitGates rfl _ }
  | twoQubitGate => exact { same with twoQubitGates := insertedBy added.twoQubitGates rfl _ }
  | nonGate | measure => exact { same with nonGates := insertedBy added.nonGates rfl _ }
  | modifier => exact { same with modifiers := insertedBy added.modifiers rfl _ }
  | casePolicy policy =>
    exact ⟨List.Subset.trans (Table.ofListValues _) same.singleQubitGates,
      List.Subset.trans (Table.ofListValues _) same.twoQubitGates,
      List.Subset.trans (Table.ofListValues _) same.nonGates, List.Subset.trans (Table.ofListValues _) same.modifiers⟩

theorem addedOfEdits (edits : List Edit) : AddedBy edits (ofEdits edits) := by
  induction edits using List.reverseRecOn with
  | nil => exact ⟨List.Subset.refl _, List.Subset.refl _, List.Subset.refl _, List.Subset.refl _⟩
  | append_singleton edits e ih =>
    rw [ofEdits, List.foldl_append]
    exact addedStep ih e

structure Merges (edits : List Edit) (set : InstructionSet) : Prop where
  singleQubitGates : set.singleQubitGates.Merges (fun s => set.key s.name) (edits.filterMap Edit.singleQubitGate?)
  twoQubitGates : set.twoQubitGates.Merges (fun s => set.key s.name) (edits.filterMap Edit.twoQubitGate?)
  nonGates : set.nonGates.Merges (fun s => set.key s.name) (edits.filterMap Edit.nonGate?)
  modifiers : set.modifiers.Merges (fun m => set.key m.name) (edits.filterMap Edit.modifier?)

theorem additionsMerge (policy : CasePolicy) (edits : List Edit) : Merges edits (ofAdditions policy edits) :=
  ⟨Table.ofListMerges _, Table.ofListMerges _, Table.ofListMerges _, Table.ofListMerges _⟩

theorem rekeyedAsBuilt {edits : List Edit} (once : AddsOnce edits) (policy : CasePolicy) :
    (ofEdits edits).policy = .sensitive ∧
    (ofEdits edits).withPolicy policy = edits.foldl edit (empty.withPolicy policy) ∧
    Merges edits ((ofEdits edits).withPolicy policy) ∧
    ∀ steps : List Edit, (ofEdits steps).Keyed ∧ AddedBy steps (ofEdits steps) := by
  have built : ofEdits edits = ofAdditions .sensitive edits := additionsRun .sensitive once.additions
  have rekeyed : (ofEdits edits).withPolicy policy = ofAdditions policy edits := by
    rw [built, additionsRekeyed policy once]
  have direct : edits.foldl edit (empty.withPolicy policy) = ofAdditions policy edits :=
    additionsRun policy once.additions
  refine ⟨congrArg InstructionSet.policy built, rekeyed.trans direct.symm, ?_, fun steps => ?_⟩
  · rw [rekeyed]
    exact additionsMerge policy edits
  · exact ⟨keyedOfEdits steps, addedOfEdits steps⟩

def recased : List Edit :=
  [.singleQubitGate "X" none ["Q"], .singleQubitGate "H" none ["Q"], .measure "measure" none ["BQ"],
    .singleQubitGate "x" (some 'f') ["V"], .nonGate "MEASURE" none ["WV"], .modifier "inv" none false]

theorem recasedRekeyed :
    AddsOnce recased ∧
      (ofEdits recased).withPolicy .insensitive = recased.foldl edit (empty.withPolicy .insensitive) ∧
      (recased.foldl edit (empty.withPolicy .insensitive)).singleQubitGates.entries =
        [("x", ⟨"x", some 'f', ["V"], false⟩), ("h", ⟨"H", none, ["Q"], false⟩)] ∧
      (recased.foldl edit (empty.withPolicy .insensitive)).nonGates.entries =
        [("measure", ⟨"MEASURE", none, ["WV"], false⟩)] ∧
      Merges recased ((ofEdits recased).withPolicy .insensitive) :=
  have once : AddsOnce recased := ⟨by simp [recased], by decide, by decide, by decide, by decide⟩
  have ⟨_, same, merged, _⟩ := rekeyedAsBuilt once .insensitive
  ⟨once, same, by decide +kernel, by decide +kernel, merged⟩

end InstructionSet

end Cqasm
