import Mathlib.Data.List.Nodup
import Cqasm.InstructionSet.Standard

/-! Keys of names, and tables whose entries each stand under the key of their own name. Every way to build an
instruction set keeps its tables so, and looking a name up in one of them finds the entry with that name. -/
namespace Cqasm

namespace CasePolicy

theorem keyAppend (policy : CasePolicy) (s t : String) : policy.key (s ++ t) = policy.key s ++ policy.key t := by
  cases policy with
  | sensitive => rfl
  | insensitive => simp only [key, String.toList_append, List.map_append, String.ofList_append]

theorem keyComposed (policy : CasePolicy) (c : Composition) (gate : String) :
    policy.key (c.nameOf gate) = c.nameOf (policy.key gate) := by
  have mark : policy.key (c.mark ++ "_") = c.mark ++ "_" := by
    cases policy <;> cases c <;> rfl
  rw [Composition.nameOf, keyAppend, mark, Composition.nameOf]

end CasePolicy

namespace Table

variable {α : Type} {key : α → String}

structure KeyedBy (key : α → String) (t : Table α) : Prop where
  own : ∀ e ∈ t.entries, e.1 = key e.2
  once : (t.entries.map Prod.fst).Nodup

theorem emptyKeyed : KeyedBy key (.empty : Table α) := ⟨by simp [empty], by simp [empty]⟩

theorem memAltered {k : String} {change : Option α → α} {entries : List (String × α)} {e : String × α}
    (member : e ∈ alterEntries k change entries) : e ∈ entries ∨ ∃ old, e = (k, change old) := by
  induction entries with
  | nil => exact .inr ⟨none, List.mem_singleton.mp member⟩
  | cons head rest ih =>
    obtain ⟨other, a⟩ := head
    rw [alterEntries] at member
    split at member
    case isTrue same =>
      rcases List.mem_cons.mp member with here | there
      · exact .inr ⟨some a, same ▸ here⟩
      · exact .inl (List.mem_cons_of_mem _ there)
    case isFalse =>
      rcases List.mem_cons.mp member with here | there
      · exact .inl (here ▸ List.mem_cons_self)
      · exact (ih there).imp_left (List.mem_cons_of_mem _)

theorem alteredKeys (k : String) (change : Option α → α) (entries : List (String × α)) :
    (alterEntries k change entries).map Prod.fst =
      entries.map Prod.fst ++ if k ∈ entries.map Prod.fst then [] else [k] := by
  induction entries with
  | nil => rfl
  | cons head rest ih =>
    obtain ⟨other, a⟩ := head
    by_cases same : k = other
    · simp [alterEntries, same]
    · have later : k ∈ other :: rest.map Prod.fst ↔ k ∈ rest.map Prod.fst := by simp [same]
      simp only [alterEntries, if_neg same, List.map_cons, ih, List.cons_append, later]

theorem insertKeyed {t : Table α} (keyed : t.KeyedBy key) (a : α) : (t.insert (key a) a).KeyedBy key where
  own e member := by
    rcases memAltered member with old | ⟨_, rfl⟩
    · exact keyed.own e old
    · rfl
  once := by
    have keys := alteredKeys (key a) (fun _ => a) t.entries
    rw [insert, alter, keys]
    split
    · simpa using keyed.once
    · rename_i absent
      exact List.nodup_append.mpr ⟨keyed.once, List.nodup_singleton _, by
        intro x old y new same
        rw [List.mem_singleton.mp new] at same
        exact absent (same ▸ old)⟩

theorem insertAllKeyed (xs : List α) {t : Table α} (keyed : t.KeyedBy key) :
    (xs.foldl (fun t a => t.insert (key a) a) t).KeyedBy key := by
  induction xs generalizing t with
  | nil => exact keyed
  | cons x xs ih => exact ih (insertKeyed keyed x)

theorem memOfFound {t : Table α} {k : String} {a : α} (found : t.find? k = some a) : (k, a) ∈ t.entries := by
  obtain ⟨before, after, split, _⟩ := List.lookup_eq_some_iff.mp found
  rw [split]
  exact List.mem_append_right _ List.mem_cons_self

theorem KeyedBy.find {t : Table α} (keyed : t.KeyedBy key) {k : String} {a : α} :
    t.find? k = some a ↔ a ∈ t.values ∧ key a = k := by
  constructor
  · intro found
    have member := memOfFound found
    exact ⟨List.mem_map.mpr ⟨_, member, rfl⟩, (keyed.own _ member).symm⟩
  · rintro ⟨member, rfl⟩
    obtain ⟨e, here, rfl⟩ := List.mem_map.mp member
    rw [← keyed.own e here]
    obtain ⟨before, after, split⟩ := List.append_of_mem here
    have once := keyed.once
    rw [split, List.map_append, List.map_cons, List.nodup_append] at once
    refine List.lookup_eq_some_iff.mpr ⟨before, after, split, fun f earlier => ?_⟩
    have other := once.2.2 f.1 (List.mem_map.mpr ⟨f, earlier, rfl⟩) _ List.mem_cons_self
    simpa using Ne.symm other

theorem KeyedBy.contains {t : Table α} (keyed : t.KeyedBy key) {k : String} :
    t.contains k = true ↔ ∃ a ∈ t.values, key a = k := by
  rw [Table.contains, Option.isSome_iff_exists]
  exact exists_congr fun a => keyed.find

end Table

namespace InstructionSet

inductive Edit where
  | singleQubitGate (name : String) (param : Option Char) (operands : List String)
  | twoQubitGate (name : String) (param : Option Char) (operands : List String)
  | nonGate (name : String) (param : Option Char) (operands : List String)
  | measure (name : String) (param : Option Char) (operands : List String)
  | modifier (name : String) (param : Option Char) (twoQubit : Bool)
  | casePolicy (policy : CasePolicy)

def edit (set : InstructionSet) : Edit → InstructionSet
  | .singleQubitGate name param operands => set.addSingleQubitGate name param operands
  | .twoQubitGate name param operands => set.addTwoQubitGate name param operands
  | .nonGate name param operands => set.addNonGate name param operands
  | .measure name param operands => set.addMeasure name param operands
  | .modifier name param twoQubit => set.addModifier name param twoQubit
  | .casePolicy policy => set.withPolicy policy

def ofEdits (edits : List Edit) : InstructionSet := edits.foldl edit .empty

structure Keyed (set : InstructionSet) : Prop where
  singleQubitGates : set.singleQubitGates.KeyedBy fun s => set.key s.name
  twoQubitGates : set.twoQubitGates.KeyedBy fun s => set.key s.name
  nonGates : set.nonGates.KeyedBy fun s => set.key s.name
  modifiers : set.modifiers.KeyedBy fun m => set.key m.name

theorem keyedWithPolicy (set : InstructionSet) (policy : CasePolicy) : (set.withPolicy policy).Keyed where
  singleQubitGates := Table.insertAllKeyed _ Table.emptyKeyed
  twoQubitGates := Table.insertAllKeyed _ Table.emptyKeyed
  nonGates := Table.insertAllKeyed _ Table.emptyKeyed
  modifiers := Table.insertAllKeyed _ Table.emptyKeyed

theorem keyedEdit {set : InstructionSet} (keyed : set.Keyed) (e : Edit) : (set.edit e).Keyed := by
  obtain ⟨single, two, others, modifiers⟩ := keyed
  cases e with
  | singleQubitGate name param operands =>
    exact ⟨Table.insertKeyed single ⟨name, param, operands, false⟩, two, others, modifiers⟩
  | twoQubitGate name param operands =>
    exact ⟨single, Table.insertKeyed two ⟨name, param, operands, false⟩, others, modifiers⟩
  | nonGate name param operands =>
    exact ⟨single, two, Table.insertKeyed others ⟨name, param, operands, false⟩, modifiers⟩
  | measure name param operands =>
    exact ⟨single, two, Table.insertKeyed others ⟨name, param, operands, true⟩, modifiers⟩
  | modifier name param twoQubit =>
    exact ⟨single, two, others, Table.insertKeyed modifiers ⟨name, param, twoQubit⟩⟩
  | casePolicy policy => exact keyedWithPolicy set policy

theorem keyedEdits {set : InstructionSet} (keyed : set.Keyed) (edits : List Edit) : (edits.foldl edit set).Keyed := by
  induction edits generalizing set with
  | nil => exact keyed
  | cons e edits ih => exact ih (keyedEdit keyed e)

theorem keyedOfEdits (edits : List Edit) : (ofEdits edits).Keyed :=
  keyedEdits ⟨Table.emptyKeyed, Table.emptyKeyed, Table.emptyKeyed, Table.emptyKeyed⟩ edits

def standardEdits : List Edit :=
  [.twoQubitGate "CNOT" none twoOperands, .twoQubitGate "CR" (some 'f') twoOperands,
    .twoQubitGate "CRk" (some 'i') twoOperands, .twoQubitGate "CZ" none twoOperands,
    .twoQubitGate "SWAP" none twoOperands] ++
  plainGates.map (fun name => .singleQubitGate name none oneOperand) ++
  rotations.map (fun name => .singleQubitGate name (some 'f') oneOperand) ++
  [.measure "measure" none ["BQ", "WV", "BV", "WQ"], .nonGate "reset" none ["", "Q", "V"],
    .nonGate "init" none oneOperand, .nonGate "barrier" none oneOperand, .nonGate "wait" (some 'i') oneOperand,
    .modifier "inv" none false, .modifier "pow" (some 'f') false, .modifier "ctrl" none true]

theorem standardOfEdits : ofEdits standardEdits = standard := by
  rfl

end InstructionSet

end Cqasm
