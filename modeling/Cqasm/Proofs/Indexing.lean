import Cqasm.Proofs.Coherence
import Cqasm.Proofs.Constness
import Cqasm.Proofs.Origins

/-! Elements of array variables. An index expression selects exactly the elements that its entries ask for, in the order
in which they ask for them, and fails where an entry asks for anything else. Ranges are a way to write their members one
by one. -/
namespace Cqasm.Analysis

open Cqasm.Tree (Expr IndexEntry)

inductive Counts : Int → Int → List Int → Prop where
  | last (i : Int) : Counts i i [i]
  | next {i j : Int} {rest : List Int} (tail : Counts (i + 1) j rest) : Counts i j (i :: rest)

theorem Counts.ordered {i j : Int} {is : List Int} (counts : Counts i j is) : i ≤ j := by
  induction counts with
  | last i => exact Int.le_refl i
  | next tail ih => omega

theorem Counts.between {i j : Int} {is : List Int} (counts : Counts i j is) : ∀ k ∈ is, i ≤ k ∧ k ≤ j := by
  induction counts with
  | last i => simp
  | @next i j rest tail ih =>
    intro k member
    have order := tail.ordered
    rcases List.mem_cons.mp member with here | there
    · omega
    · have bounds := ih k there
      omega

theorem Counts.unique {i j : Int} {is ks : List Int} (counts : Counts i j is) (others : Counts i j ks) : is = ks := by
  induction counts generalizing ks with
  | last i =>
    cases others with
    | last => rfl
    | next tail =>
      have order := tail.ordered
      omega
  | next tail ih =>
    cases others with
    | last =>
      have order := tail.ordered
      omega
    | next more => rw [ih more]

theorem countsFrom (n : Nat) (i : Int) : Counts i (i + n) ((List.range (n + 1)).map fun (k : Nat) => i + k) := by
  induction n generalizing i with
  | zero => simpa using Counts.last i
  | succ n ih =>
    have tail := ih (i + 1)
    rw [List.range_succ_eq_map, List.map_cons, List.map_map]
    have shifted : ((fun k : Nat => i + (k : Int)) ∘ Nat.succ) = fun k : Nat => i + 1 + (k : Int) := by
      funext k
      simp only [Function.comp_apply, Nat.succ_eq_add_one, Int.natCast_add]
      omega
    have stop : i + 1 + (n : Int) = i + ((n + 1 : Nat) : Int) := by omega
    rw [shifted, ← stop, Int.natCast_zero, Int.add_zero]
    exact .next tail

theorem countsRange {i j : Int} (order : i ≤ j) :
    Counts i j ((List.range (j - i + 1).toNat).map fun (k : Nat) => i + k) := by
  have counts := countsFrom (j - i).toNat i
  have stop : i + ((j - i).toNat : Int) = j := by omega
  have number : (j - i).toNat + 1 = (j - i + 1).toNat := by omega
  rwa [stop, number] at counts

theorem singleIndexOk {size i : Int} {is : List Int} :
    singleIndex size i = .ok is ↔ 0 ≤ i ∧ i < size ∧ is = [i] := by
  unfold singleIndex
  split
  · simp only [reduceCtorEq, false_iff]
    omega
  · simp only [Except.ok.injEq]
    constructor
    · intro same
      exact ⟨by omega, by omega, same.symm⟩
    · intro inside
      exact inside.2.2.symm

theorem indexRangeOk {size i j : Int} {is : List Int} :
    indexRange size i j = .ok is ↔ 0 ≤ i ∧ i ≤ j ∧ j < size ∧ Counts i j is := by
  unfold indexRange
  split
  · simp only [reduceCtorEq, false_iff]
    omega
  split
  · simp only [reduceCtorEq, false_iff]
    omega
  split
  · simp only [reduceCtorEq, false_iff]
    omega
  · have counts := countsRange (i := i) (j := j) (by omega)
    simp only [Except.ok.injEq]
    constructor
    · intro same
      exact ⟨by omega, by omega, by omega, same ▸ counts⟩
    · intro inside
      exact counts.unique inside.2.2.2

section Integers

variable {scopes : ScopeStack} {e : Expr}

def Known (scopes : ScopeStack) (e : Expr) (i : Int) : Prop :=
  ∃ c k, expression scopes e = .ok (.const c) ∧ (Value.const c).promote .int = some (.const (.int k)) ∧ k.toInt = i

inductive Unknown (scopes : ScopeStack) (e : Expr) : Diagnostic → Prop where
  | failed {d : Diagnostic} (faulty : expression scopes e = .error d) : Unknown scopes e d
  | other {v : Value} (analysed : expression scopes e = .ok v) (other : v.type.promotesTo .int = false) :
      Unknown scopes e ⟨.notInteger, e.location⟩
  | dynamic {v : Value} (analysed : expression scopes e = .ok v) (integer : v.type.promotesTo .int = true)
      (dynamic : v.isConstant = false) : Unknown scopes e ⟨.dynamicIndex, e.location⟩

theorem promotedInt {c : Constant} {w : Value} (promoted : (Value.const c).promote .int = some w) :
    ∃ k, w = .const (.int k) := by
  obtain ⟨d, rfl⟩ := Value.constantIff.mp (Value.promotedIsConstant promoted)
  have shape := Payload.shapeOfAccepted ((Value.promotedFits promoted).2 rfl)
  cases d <;> cases shape
  exact ⟨_, rfl⟩

theorem constantIntOk {v : Value} {i : Int} : constantInt v = .ok i ↔
    ∃ c k, v = .const c ∧ (Value.const c).promote .int = some (.const (.int k)) ∧ k.toInt = i := by
  constructor
  · intro done
    obtain ⟨c, rfl⟩ := Value.constantIff.mp (integerConstant done)
    unfold constantInt at done
    split at done
    case h_1 => cases done
    case h_2 w promoted =>
      obtain ⟨k, rfl⟩ := promotedInt promoted
      exact ⟨c, k, rfl, promoted, Except.ok.inj done⟩
  · intro known
    obtain ⟨c, k, constant, promoted, same⟩ := known
    simp [constantInt, constant, promoted, Value.int?, same]

theorem constantIntError {v : Value} {fault : Fault} : constantInt v = .error fault ↔
    (v.type.promotesTo .int = false ∧ fault = .notInteger) ∨
      (v.type.promotesTo .int = true ∧ v.isConstant = false ∧ fault = .dynamicIndex) := by
  have promotes := Value.promoteIsSome v .int
  cases promoted : v.promote .int with
  | none =>
    have other : v.type.promotesTo .int = false := by rw [← promotes, promoted]; rfl
    simp [constantInt, promoted, other, @eq_comm _ fault]
  | some w =>
    have integer : v.type.promotesTo .int = true := by rw [← promotes, promoted]; rfl
    cases v with
    | const c =>
      obtain ⟨k, rfl⟩ := promotedInt promoted
      simp [constantInt, promoted, integer, Value.int?, Value.isConstant]
    | reference | selection | call =>
      -- nothing that is not constant is changed by promotion
      have same := (Value.promotedIs promoted).dynamic rfl
      subst same
      simp [constantInt, promoted, integer, Value.int?, Value.isConstant, @eq_comm _ fault]

def integerAt (scopes : ScopeStack) (e : Expr) : Except Diagnostic Int := do
  let value ← expression scopes e
  placed e.location (unplaced (constantInt value))

theorem integerAtOk {i : Int} : integerAt scopes e = .ok i ↔ Known scopes e i := by
  simp only [integerAt, bindOk, placedOk, unplacedOk, constantIntOk]
  constructor
  · intro done
    obtain ⟨v, analysed, c, k, constant, promoted, same⟩ := done
    subst constant
    exact ⟨c, k, analysed, promoted, same⟩
  · intro known
    obtain ⟨c, k, analysed, promoted, same⟩ := known
    exact ⟨.const c, analysed, c, k, rfl, promoted, same⟩

theorem integerAtError {d : Diagnostic} : integerAt scopes e = .error d ↔ Unknown scopes e d := by
  simp only [integerAt, bindError, placedError, unplacedError, constantIntError]
  constructor
  · intro failed
    rcases failed with faulty | ⟨v, analysed, own, ⟨fault, reason, rfl⟩, rfl⟩
    · exact .failed faulty
    · rcases reason with ⟨other, rfl⟩ | ⟨integer, dynamic, rfl⟩
      · exact .other analysed other
      · exact .dynamic analysed integer dynamic
  · intro unknown
    cases unknown with
    | failed faulty => exact .inl faulty
    | other analysed other => exact .inr ⟨_, analysed, _, ⟨_, .inl ⟨other, rfl⟩, rfl⟩, rfl⟩
    | dynamic analysed integer dynamic =>
      exact .inr ⟨_, analysed, _, ⟨_, .inr ⟨integer, dynamic, rfl⟩, rfl⟩, rfl⟩

theorem knownOnce {i k : Int} (known : Known scopes e i) (again : Known scopes e k) : i = k := by
  have same := (integerAtOk.mpr known).symm.trans (integerAtOk.mpr again)
  exact Except.ok.inj same

theorem literalKnown (k : Int64) (location : Option Location) : Known scopes (.literal (.int k) location) k.toInt :=
  ⟨.int k, k, by rw [expression]; rfl, rfl, rfl⟩

end Integers

section Entries

variable {scopes : ScopeStack} {size : Int}

def InRange (scopes : ScopeStack) (size : Int) : IndexEntry Expr → Prop
  | .item e => ∃ i, Known scopes e i ∧ 0 ≤ i ∧ i < size
  | .range first last => ∃ i j, Known scopes first i ∧ Known scopes last j ∧ 0 ≤ i ∧ i ≤ j ∧ j < size

inductive Denotes (scopes : ScopeStack) : IndexEntry Expr → List Int → Prop where
  | item {e : Expr} {i : Int} (known : Known scopes e i) : Denotes scopes (.item e) [i]
  | range {first last : Expr} {i j : Int} {is : List Int} (start : Known scopes first i) (stop : Known scopes last j)
      (counts : Counts i j is) : Denotes scopes (.range first last) is

/- What is reported of an entry that cannot be used. A range is looked at from its start: both ends are read before they
are compared, and they are compared before the array is asked. -/
inductive Offends (scopes : ScopeStack) (size : Int) : IndexEntry Expr → Diagnostic → Prop where
  | item {e : Expr} {d : Diagnostic} (unknown : Unknown scopes e d) : Offends scopes size (.item e) d
  | outside {e : Expr} {i : Int} (known : Known scopes e i) (outside : i < 0 ∨ size ≤ i) :
      Offends scopes size (.item e) ⟨.indexOutOfRange i size, none⟩
  | start {first last : Expr} {d : Diagnostic} (unknown : Unknown scopes first d) :
      Offends scopes size (.range first last) d
  | stop {first last : Expr} {i : Int} {d : Diagnostic} (start : Known scopes first i)
      (unknown : Unknown scopes last d) :
      Offends scopes size (.range first last) d
  | reversed {first last : Expr} {i j : Int} (start : Known scopes first i) (stop : Known scopes last j)
      (order : j < i) :
      Offends scopes size (.range first last) ⟨.reversedRange, none⟩
  | starts {first last : Expr} {i j : Int} (start : Known scopes first i) (stop : Known scopes last j) (order : i ≤ j)
      (outside : i < 0 ∨ size ≤ i) : Offends scopes size (.range first last) ⟨.indexOutOfRange i size, none⟩
  | stops {first last : Expr} {i j : Int} (start : Known scopes first i) (stop : Known scopes last j) (low : 0 ≤ i)
      (inside : i < size) (outside : size ≤ j) :
      Offends scopes size (.range first last) ⟨.indexOutOfRange size size, none⟩

theorem itemEq (e : Expr) :
    indexEntry scopes size (.item e) = (do let i ← integerAt scopes e; unplaced (singleIndex size i)) := by
  rw [indexEntry]
  simp only [integerAt, bind_assoc]

theorem rangeEq (first last : Expr) : indexEntry scopes size (.range first last) =
    (do let i ← integerAt scopes first; let j ← integerAt scopes last; unplaced (indexRange size i j)) := by
  rw [indexEntry]
  simp only [integerAt, bind_assoc]

theorem entryOk {entry : IndexEntry Expr} {is : List Int} :
    indexEntry scopes size entry = .ok is ↔ InRange scopes size entry ∧ Denotes scopes entry is := by
  cases entry with
  | item e =>
    simp only [itemEq, bindOk, integerAtOk, unplacedOk, singleIndexOk]
    constructor
    · intro done
      obtain ⟨i, known, low, high, same⟩ := done
      subst same
      exact ⟨⟨i, known, low, high⟩, .item known⟩
    · intro usable
      obtain ⟨⟨i, known, low, high⟩, denotes⟩ := usable
      cases denotes with
      | item again => exact ⟨i, known, low, high, by rw [knownOnce known again]⟩
  | range first last =>
    simp only [rangeEq, bindOk, integerAtOk, unplacedOk, indexRangeOk]
    constructor
    · intro done
      obtain ⟨i, start, j, stop, low, order, high, counts⟩ := done
      exact ⟨⟨i, j, start, stop, low, order, high⟩, .range start stop counts⟩
    · intro usable
      obtain ⟨⟨i, j, start, stop, low, order, high⟩, denotes⟩ := usable
      cases denotes with
      | range again stopAgain counts =>
        cases knownOnce start again
        cases knownOnce stop stopAgain
        exact ⟨i, start, j, stop, low, order, high, counts⟩

theorem entryInRange {entry : IndexEntry Expr} :
    (∃ is, indexEntry scopes size entry = .ok is) ↔ InRange scopes size entry := by
  simp only [entryOk]
  constructor
  · intro done
    obtain ⟨_, inRange, _⟩ := done
    exact inRange
  · intro inRange
    cases entry with
    | item e =>
      obtain ⟨i, known, low, high⟩ := inRange
      exact ⟨[i], ⟨i, known, low, high⟩, .item known⟩
    | range first last =>
      obtain ⟨i, j, start, stop, low, order, high⟩ := inRange
      exact ⟨_, ⟨i, j, start, stop, low, order, high⟩, .range start stop (countsRange order)⟩

theorem singleIndexError {i : Int} {fault : Fault} :
    singleIndex size i = .error fault ↔ (i < 0 ∨ size ≤ i) ∧ fault = .indexOutOfRange i size := by
  unfold singleIndex
  split
  case isTrue outside => simp [outside, eq_comm]
  case isFalse inside => simp [inside]

theorem indexRangeError {i j : Int} {fault : Fault} : indexRange size i j = .error fault ↔
    (j < i ∧ fault = .reversedRange) ∨
      (i ≤ j ∧ (i < 0 ∨ size ≤ i) ∧ fault = .indexOutOfRange i size) ∨
      (0 ≤ i ∧ i < size ∧ size ≤ j ∧ fault = .indexOutOfRange size size) := by
  unfold indexRange
  split
  case isTrue reversed =>
    simp only [Except.error.injEq]
    constructor
    · intro same
      exact .inl ⟨reversed, same.symm⟩
    · intro reason
      rcases reason with ⟨_, same⟩ | ⟨order, _⟩ | ⟨_, inside, outside, _⟩
      · exact same.symm
      · omega
      · omega
  split
  case isTrue order outside =>
    simp only [Except.error.injEq]
    constructor
    · intro same
      exact .inr (.inl ⟨by omega, outside, same.symm⟩)
    · intro reason
      rcases reason with ⟨reversed, _⟩ | ⟨_, _, same⟩ | ⟨_, inside, _, _⟩
      · omega
      · exact same.symm
      · omega
  split
  case isTrue order inside outside =>
    simp only [Except.error.injEq]
    constructor
    · intro same
      exact .inr (.inr ⟨by omega, by omega, outside, same.symm⟩)
    · intro reason
      rcases reason with ⟨reversed, _⟩ | ⟨_, starts, _⟩ | ⟨_, _, _, same⟩
      · omega
      · omega
      · exact same.symm
  case isFalse =>
    simp only [reduceCtorEq, false_iff]
    intro reason
    rcases reason with ⟨reversed, _⟩ | ⟨_, starts, _⟩ | ⟨_, _, outside, _⟩ <;> omega

theorem entryError {entry : IndexEntry Expr} {d : Diagnostic} :
    indexEntry scopes size entry = .error d ↔ Offends scopes size entry d := by
  cases entry with
  | item e =>
    simp only [itemEq, bindError, integerAtOk, integerAtError, unplacedError, singleIndexError]
    constructor
    · intro failed
      rcases failed with unknown | ⟨i, known, fault, ⟨outside, rfl⟩, rfl⟩
      · exact .item unknown
      · exact .outside known outside
    · intro offends
      cases offends with
      | item unknown => exact .inl unknown
      | outside known outside => exact .inr ⟨_, known, _, ⟨outside, rfl⟩, rfl⟩
  | range first last =>
    simp only [rangeEq, bindError, integerAtOk, integerAtError, unplacedError, indexRangeError]
    constructor
    · intro failed
      rcases failed with unknown | ⟨i, start, unknown | ⟨j, stop, fault, reason, rfl⟩⟩
      · exact .start unknown
      · exact .stop start unknown
      · rcases reason with ⟨order, rfl⟩ | ⟨order, outside, rfl⟩ | ⟨low, inside, outside, rfl⟩
        · exact .reversed start stop order
        · exact .starts start stop order outside
        · exact .stops start stop low inside outside
    · intro offends
      cases offends with
      | start unknown => exact .inl unknown
      | stop start unknown => exact .inr ⟨_, start, .inl unknown⟩
      | reversed start stop order => exact .inr ⟨_, start, .inr ⟨_, stop, _, .inl ⟨order, rfl⟩, rfl⟩⟩
      | starts start stop order outside =>
        exact .inr ⟨_, start, .inr ⟨_, stop, _, .inr (.inl ⟨order, outside, rfl⟩), rfl⟩⟩
      | stops start stop low inside outside =>
        exact .inr ⟨_, start, .inr ⟨_, stop, _, .inr (.inr ⟨low, inside, outside, rfl⟩), rfl⟩⟩

theorem entriesDenote {entries : List (IndexEntry Expr)} {is : List Int}
    (done : indexEntries scopes size entries = .ok is) :
    ∃ groups, List.Forall₂ (Denotes scopes) entries groups ∧ is = groups.flatten := by
  induction entries generalizing is with
  | nil =>
    cases done
    exact ⟨[], .nil, rfl⟩
  | cons entry rest ih =>
    simp only [indexEntries, bindOk, pureOk] at done
    obtain ⟨here, first, others, tail, rfl⟩ := done
    obtain ⟨groups, each, rfl⟩ := ih tail
    exact ⟨here :: groups, .cons (entryOk.mp first).2 each, rfl⟩

theorem entriesInRange {entries : List (IndexEntry Expr)} :
    (∃ is, indexEntries scopes size entries = .ok is) ↔ ∀ entry ∈ entries, InRange scopes size entry := by
  induction entries with
  | nil =>
    rw [indexEntries]
    simp
  | cons entry rest ih =>
    rw [List.forall_mem_cons, ← ih, ← entryInRange]
    simp only [indexEntries, bindOk, pureOk]
    constructor
    · intro done
      obtain ⟨_, here, first, others, tail, _⟩ := done
      exact ⟨⟨here, first⟩, others, tail⟩
    · intro each
      obtain ⟨⟨here, first⟩, others, tail⟩ := each
      exact ⟨here ++ others, here, first, others, tail, rfl⟩

theorem entriesError {entries : List (IndexEntry Expr)} {d : Diagnostic} :
    indexEntries scopes size entries = .error d ↔
      ∃ before bad after, entries = before ++ bad :: after ∧ (∀ entry ∈ before, InRange scopes size entry) ∧
        Offends scopes size bad d := by
  induction entries with
  | nil =>
    rw [indexEntries]
    simp
  | cons entry rest ih =>
    simp only [indexEntries, bindError, entryError, ih]
    constructor
    · intro failed
      rcases failed with offends | ⟨here, first, later | ⟨_, _, last⟩⟩
      · exact ⟨[], entry, rest, rfl, by simp, offends⟩
      · obtain ⟨before, bad, after, rfl, usable, offends⟩ := later
        have head : InRange scopes size entry := entryInRange.mp ⟨here, first⟩
        exact ⟨entry :: before, bad, after, rfl, List.forall_mem_cons.mpr ⟨head, usable⟩, offends⟩
      · cases last
    · intro stopped
      obtain ⟨before, bad, after, split, usable, offends⟩ := stopped
      cases before with
      | nil =>
        cases split
        exact .inl offends
      | cons head before =>
        cases split
        obtain ⟨inRange, others⟩ := List.forall_mem_cons.mp usable
        obtain ⟨here, first⟩ := entryInRange.mpr inRange
        exact .inr ⟨here, first, .inl ⟨before, bad, after, rfl, others, offends⟩⟩

theorem entriesAppend (front back : List (IndexEntry Expr)) :
    indexEntries scopes size (front ++ back) =
      (do
        let is ← indexEntries scopes size front
        let others ← indexEntries scopes size back
        return is ++ others) := by
  induction front with
  | nil =>
    rw [List.nil_append, indexEntries]
    cases indexEntries scopes size back <;> rfl
  | cons entry rest ih =>
    rw [List.cons_append, indexEntries, ih, indexEntries]
    cases indexEntry scopes size entry with
    | error d => rfl
    | ok here =>
      cases indexEntries scopes size rest with
      | error d => rfl
      | ok is =>
        cases indexEntries scopes size back with
        | error d => rfl
        | ok others => exact congrArg Except.ok (List.append_assoc here is others).symm

theorem itemKnown {e : Expr} {i : Int} (known : Known scopes e i) :
    indexEntry scopes size (.item e) = unplaced (singleIndex size i) := by
  rw [itemEq, integerAtOk.mpr known]
  rfl

theorem indexRangeSelf (size i : Int) : indexRange size i i = singleIndex size i := by
  by_cases outside : i < 0 ∨ size ≤ i
  · rw [singleIndexError.mpr ⟨outside, rfl⟩, indexRangeError.mpr (.inr (.inl ⟨Int.le_refl i, outside, rfl⟩))]
  · rw [singleIndexOk.mpr ⟨by omega, by omega, rfl⟩, indexRangeOk.mpr ⟨by omega, Int.le_refl i, by omega, .last i⟩]

theorem indexRangeStep (size : Int) {i j : Int} (order : i < j) : indexRange size i j =
    (do
      let here ← singleIndex size i
      let others ← indexRange size (i + 1) j
      return here ++ others) := by
  by_cases outside : i < 0 ∨ size ≤ i
  · rw [singleIndexError.mpr ⟨outside, rfl⟩, indexRangeError.mpr (.inr (.inl ⟨by omega, outside, rfl⟩))]
    rfl
  rw [singleIndexOk.mpr ⟨by omega, by omega, rfl⟩]
  by_cases past : size ≤ j
  · have later : indexRange size (i + 1) j = .error (.indexOutOfRange size size) := by
      by_cases next : i + 1 = size
      · rw [next]
        exact indexRangeError.mpr (.inr (.inl ⟨past, .inr (Int.le_refl size), rfl⟩))
      · exact indexRangeError.mpr (.inr (.inr ⟨by omega, by omega, past, rfl⟩))
    rw [later, indexRangeError.mpr (.inr (.inr ⟨by omega, by omega, past, rfl⟩))]
    rfl
  · have tail := countsRange (i := i + 1) (j := j) (by omega)
    rw [indexRangeOk.mpr ⟨by omega, by omega, by omega, tail⟩,
      indexRangeOk.mpr ⟨by omega, by omega, by omega, .next tail⟩]
    rfl

theorem unplacedBind {α β : Type} (x : Except Fault α) (f : α → Except Fault β) :
    unplaced (x >>= f) = (do let a ← unplaced x; unplaced (f a)) := by
  cases x <;> rfl

theorem itemsOfRange {i j : Int} {is : List Int} (counts : Counts i j is) {items : List Expr}
    (known : List.Forall₂ (Known scopes) items is) :
    indexEntries scopes size (items.map .item) = unplaced (indexRange size i j) := by
  induction counts generalizing items with
  | last i =>
    obtain ⟨e, _, here, none, rfl⟩ := List.forall₂_cons_right_iff.mp known
    cases List.forall₂_nil_right_iff.mp none
    rw [List.map_cons, indexEntries, itemKnown here, List.map_nil, indexEntries, indexRangeSelf]
    cases singleIndex size i with
    | error fault => rfl
    | ok is => exact congrArg Except.ok (List.append_nil is)
  | @next i j rest tail ih =>
    obtain ⟨e, others, here, later, rfl⟩ := List.forall₂_cons_right_iff.mp known
    have order : i < j := Int.lt_of_add_one_le tail.ordered
    rw [List.map_cons, indexEntries, itemKnown here, ih later, indexRangeStep size order]
    simp only [unplacedBind]
    rfl

theorem rangeReplaced (before after : List (IndexEntry Expr)) {first last : Expr} {i j : Int} {is : List Int}
    (start : Known scopes first i) (stop : Known scopes last j) (counts : Counts i j is) {items : List Expr}
    (known : List.Forall₂ (Known scopes) items is) :
    indexEntries scopes size (before ++ (items.map .item ++ after)) =
      indexEntries scopes size (before ++ .range first last :: after) := by
  have range : indexEntry scopes size (.range first last) = indexEntries scopes size (items.map .item) := by
    rw [itemsOfRange counts known, rangeEq, integerAtOk.mpr start, integerAtOk.mpr stop]
    rfl
  rw [entriesAppend before, entriesAppend before, entriesAppend (items.map .item), indexEntries, range]

end Entries

structure ArrayVariable (v : Value) (array : Selection) : Prop where
  reference : v = .reference array.id array.arrayType
  storage : array.element = .qubit ∨ array.element = .bit
  sized : 0 ≤ array.size

theorem indexableArray {v : Value} {array : Selection} (whole : ArrayVariable v array) :
    indexable v = .ok ({ array with indices := [] }, array.size) := by
  obtain ⟨id, element, size, assignable, indices⟩ := array
  obtain ⟨reference, storage, sized⟩ := whole
  have extent (kind : Element) : (⟨.array kind size, assignable⟩ : Ty).extent = .ok size :=
    if_neg (Int.not_lt.mpr sized)
  subst reference
  rcases storage with qubits | bits
  · cases qubits
    simp only [Selection.arrayType, indexable, extent]
    rfl
  · cases bits
    simp only [Selection.arrayType, indexable, extent]
    rfl

theorem indexableOther {v : Value} (other : ¬ ∃ array, ArrayVariable v array) :
    ∃ fault, indexable v = .error fault ∧ fault.kind = .typing := by
  have unsized (kind : Element) {size : Int} {assignable : Bool} (negative : size < 0) :
      (⟨.array kind size, assignable⟩ : Ty).extent = .error (.unconstrainedSize ⟨.array kind size, assignable⟩) :=
    if_pos negative
  unfold indexable
  split
  case h_1 id size assignable =>
    have negative : size < 0 := by
      by_contra sized
      exact other ⟨⟨id, .qubit, size, assignable, []⟩, rfl, .inl rfl, Int.not_lt.mp sized⟩
    rw [unsized .qubit negative]
    exact ⟨_, rfl, rfl⟩
  case h_2 id size assignable =>
    have negative : size < 0 := by
      by_contra sized
      exact other ⟨⟨id, .bit, size, assignable, []⟩, rfl, .inr rfl, Int.not_lt.mp sized⟩
    rw [unsized .bit negative]
    exact ⟨_, rfl, rfl⟩
  case h_3 => exact ⟨_, rfl, rfl⟩

theorem selectionType (array : Selection) (is : List Int) :
    (is.length = 1 → array.arrayType.element? = some (Value.selection { array with indices := is }).type) ∧
      (is.length ≠ 1 → (Value.selection { array with indices := is }).type = array.arrayType.withSize is.length) := by
  constructor
  · intro one
    simp [Value.type, Selection.type, one, Selection.arrayType, Ty.element?, Shape.element?]
  · intro several
    simp [Value.type, Selection.type, several, Selection.arrayType, Ty.withSize]

section Expressions

variable {scopes : ScopeStack} {base : Expr} {v : Value} {array : Selection}

theorem indexEq (analysed : expression scopes base = .ok v) (whole : ArrayVariable v array)
    (entries : List (IndexEntry Expr)) (location : Option Location) :
    expression scopes (.index base entries location) =
      placed location (do
        let indices ← indexEntries scopes array.size entries
        return .selection { array with indices }) := by
  have taken := unplacedOk.mpr (indexableArray whole)
  simp only [expression, analysed, taken, bind, Except.bind]

def literals (is : List Int) : List Expr := is.map fun i => .literal (.int (.ofInt i)) none

theorem literalsKnown {first last : Expr} {i j : Int} {is : List Int} (start : Known scopes first i)
    (stop : Known scopes last j) (counts : Counts i j is) : List.Forall₂ (Known scopes) (literals is) is := by
  obtain ⟨_, k, _, _, low⟩ := start
  obtain ⟨_, l, _, _, high⟩ := stop
  rw [literals, List.forall₂_map_left_iff, List.forall₂_same]
  intro m member
  have bounds := counts.between m member
  have least := k.le_toInt
  have most := l.toInt_lt
  have same : (Int64.ofInt m).toInt = m := Int64.toInt_ofInt_of_le (by omega) (by omega)
  have known : Known scopes (.literal (.int (.ofInt m)) none) (Int64.ofInt m).toInt := literalKnown _ none
  rwa [same] at known

structure Expands (scopes : ScopeStack) (base : Expr) (entries : List (IndexEntry Expr)) (location : Option Location)
    (array : Selection) : Prop where
  succeeds : (∃ v, expression scopes (.index base entries location) = .ok v) ↔
    ∀ entry ∈ entries, InRange scopes array.size entry
  value {v : Value} : expression scopes (.index base entries location) = .ok v →
    ∃ groups, List.Forall₂ (Denotes scopes) entries groups ∧ v = .selection { array with indices := groups.flatten } ∧
      (∀ i ∈ groups.flatten, 0 ≤ i ∧ i < array.size) ∧
      (groups.flatten.length = 1 → array.arrayType.element? = some v.type) ∧
      (groups.flatten.length ≠ 1 → v.type = array.arrayType.withSize groups.flatten.length)
  replaced {before after : List (IndexEntry Expr)} {first last : Expr} {i j : Int} {is : List Int} :
    entries = before ++ .range first last :: after → Known scopes first i → Known scopes last j → Counts i j is →
      List.Forall₂ (Known scopes) (literals is) is ∧
        ∀ items, List.Forall₂ (Known scopes) items is →
          expression scopes (.index base (before ++ (items.map .item ++ after)) location) =
            expression scopes (.index base entries location)
  fault {d : Diagnostic} : expression scopes (.index base entries location) = .error d ↔
    ∃ before bad after own, entries = before ++ bad :: after ∧
      (∀ entry ∈ before, InRange scopes array.size entry) ∧ Offends scopes array.size bad own ∧ d = own.within location

theorem arrayExpands (analysed : expression scopes base = .ok v) (whole : ArrayVariable v array)
    (entries : List (IndexEntry Expr)) (location : Option Location) : Expands scopes base entries location array where
  succeeds := by
    simp only [indexEq analysed whole, placedOk, bindOk, pureOk, ← entriesInRange]
    constructor
    · intro selected
      obtain ⟨_, is, done, _⟩ := selected
      exact ⟨is, done⟩
    · intro expanded
      obtain ⟨is, done⟩ := expanded
      exact ⟨_, is, done, rfl⟩
  value done := by
    simp only [indexEq analysed whole, placedOk, bindOk, pureOk] at done
    obtain ⟨is, expanded, rfl⟩ := done
    obtain ⟨groups, each, rfl⟩ := entriesDenote expanded
    exact ⟨groups, each, rfl, indexEntriesRange expanded, selectionType array groups.flatten⟩
  replaced split start stop counts := by
    subst split
    refine ⟨literalsKnown start stop counts, fun items known => ?_⟩
    rw [indexEq analysed whole, indexEq analysed whole, rangeReplaced _ _ start stop counts known]
  fault := by
    intro d
    simp only [indexEq analysed whole, placedError, bindError, entriesError]
    constructor
    · intro failure
      obtain ⟨own, failed, same⟩ := failure
      rcases failed with ⟨before, bad, after, split, usable, offends⟩ | ⟨_, _, last⟩
      · exact ⟨before, bad, after, own, split, usable, offends, same⟩
      · cases last
    · intro stopped
      obtain ⟨before, bad, after, own, split, usable, offends, same⟩ := stopped
      exact ⟨own, .inl ⟨before, bad, after, split, usable, offends⟩, same⟩

end Expressions

theorem indexingExpands (scopes : ScopeStack) (base : Expr) (entries : List (IndexEntry Expr))
    (location : Option Location) :
    (∀ v array, expression scopes base = .ok v → ArrayVariable v array → Expands scopes base entries location array) ∧
      (∀ v, expression scopes base = .ok v → (¬ ∃ array, ArrayVariable v array) →
        ∃ fault, expression scopes (.index base entries location) = .error ⟨fault, location⟩ ∧ fault.kind = .typing) ∧
      ∀ d, expression scopes base = .error d →
        expression scopes (.index base entries location) = .error (d.within location) := by
  refine ⟨fun v array analysed whole => arrayExpands analysed whole entries location, ?_, ?_⟩
  · intro v analysed other
    obtain ⟨fault, refused, kind⟩ := indexableOther other
    refine ⟨fault, ?_, kind⟩
    have stopped := unplacedError.mpr ⟨fault, refused, rfl⟩
    rw [indexablePlaceless v fault refused] at stopped
    simp only [expression, analysed, stopped, bind, Except.bind]
    rfl
  · intro d failed
    rw [expression, failed]
    rfl

def fiveQubits : ScopeStack :=
  .ofGlobal ((Scope.empty .sensitive).addVariable "q" (.reference 0 ⟨.array .qubit 5, true⟩)) .sensitive

def mixedEntries : List (IndexEntry Expr) :=
  [.item (.literal (.bool true) none), .range (.literal (.int 2) none) (.literal (.int 4) none)]

theorem mixedEntriesExpanded :
    expression fiveQubits (.name "q" none) = .ok (.reference 0 ⟨.array .qubit 5, true⟩) ∧
      ArrayVariable (.reference 0 ⟨.array .qubit 5, true⟩) ⟨0, .qubit, 5, true, []⟩ ∧
      Expands fiveQubits (.name "q" none) mixedEntries none ⟨0, .qubit, 5, true, []⟩ ∧
      expression fiveQubits (.index (.name "q" none) mixedEntries none) =
        .ok (.selection ⟨0, .qubit, 5, true, [1, 2, 3, 4]⟩) :=
  have analysed : expression fiveQubits (.name "q" none) = .ok (.reference 0 ⟨.array .qubit 5, true⟩) := rfl
  have whole : ArrayVariable (.reference 0 ⟨.array .qubit 5, true⟩) ⟨0, .qubit, 5, true, []⟩ :=
    ⟨rfl, .inl rfl, by decide⟩
  ⟨analysed, whole, (indexingExpands fiveQubits (.name "q" none) mixedEntries none).1 _ _ analysed whole, rfl⟩

end Cqasm.Analysis
