import Mathlib.Data.List.Induction
import Mathlib.Data.List.TakeWhile
import Mathlib.Data.Nat.Digits.Defs
import Cqasm.Proofs.Fallible
import Cqasm.Version

/-! Version numbers as text. A text is read exactly where every piece between its dots is a numeral with nothing but
blanks around it, and then each piece gives one component. What is written for a version is read as that version. -/
namespace Cqasm

namespace Text

def worth (digits : List Char) : Nat := Nat.ofDigits 10 (digits.reverse.map fun c => c.toNat - '0'.toNat)

structure Decimal (digits : List Char) : Prop where
  given : digits ≠ []
  digit : ∀ c ∈ digits, c.isDigit = true

inductive Writes : List Char → Int → Prop where
  | plain {digits} (decimal : Decimal digits) : Writes digits (worth digits)
  | plus {digits} (decimal : Decimal digits) : Writes ('+' :: digits) (worth digits)
  | minus {digits} (decimal : Decimal digits) : Writes ('-' :: digits) (-(worth digits : Int))

theorem isDigitIff {c : Char} : c.isDigit = true ↔ '0' ≤ c ∧ c ≤ '9' :=
  (Bool.and_eq_true_iff).trans (and_congr decide_eq_true_iff decide_eq_true_iff)

theorem digitIff {c : Char} {d : Nat} : digit? c = some d ↔ c.isDigit = true ∧ c.toNat - '0'.toNat = d := by
  rw [digit?, Option.ite_none_right_eq_some, Option.some.injEq, isDigitIff]

theorem worthOfChars (digits : List Char) : Nat.ofDigitChars 10 digits 0 = worth digits := by
  -- from the end, where the digit read last has the place value one
  induction digits using List.reverseRecOn with
  | nil => rfl
  | append_singleton digits c ih =>
    rw [Nat.ofDigitChars_append, ih, worth, worth, List.reverse_append]
    exact Nat.add_comm _ _

theorem digitsIff {soFar n : Nat} {text : List Char} :
    digits? soFar text = some n ↔ (∀ c ∈ text, c.isDigit = true) ∧ Nat.ofDigitChars 10 text soFar = n := by
  induction text generalizing soFar with
  | nil => simp [digits?]
  | cons c rest ih =>
    simp only [digits?, Option.bind_eq_some_iff, digitIff, ih, List.forall_mem_cons, Nat.ofDigitChars_cons]
    constructor
    · rintro ⟨d, ⟨digit, rfl⟩, others, same⟩
      exact ⟨⟨digit, others⟩, same⟩
    · rintro ⟨⟨digit, others⟩, same⟩
      exact ⟨_, ⟨digit, rfl⟩, others, same⟩

theorem naturalIff {n : Nat} {text : List Char} : natural? text = some n ↔ Decimal text ∧ worth text = n := by
  cases text with
  | nil => exact ⟨nofun, fun both => absurd rfl both.1.given⟩
  | cons c rest =>
    rw [natural?, digitsIff, worthOfChars]
    · exact and_congr_left fun _ => ⟨fun digit => ⟨List.cons_ne_nil c rest, digit⟩, Decimal.digit⟩
    · exact List.cons_ne_nil c rest

theorem numberIff {f : Nat → Int} {n : Int} {text : List Char} :
    (natural? text).map f = some n ↔ Decimal text ∧ f (worth text) = n := by
  simp only [Option.map_eq_some_iff, naturalIff, and_assoc, exists_and_left, exists_eq_left']

theorem signNoDigit {c : Char} {rest : List Char} (sign : c.isDigit = false) : ¬ Decimal (c :: rest) := by
  intro decimal
  exact Bool.false_ne_true (sign ▸ decimal.digit c List.mem_cons_self)

theorem integerMinus (rest : List Char) : integer? ('-' :: rest) = (natural? rest).map fun n : Nat => -(n : Int) := by
  rw [integer?]
  cases natural? rest <;> rfl

theorem integerIff {n : Int} {text : List Char} : integer? text = some n ↔ Writes text n := by
  constructor
  · intro read
    fun_cases integer? text
    case case1 rest =>
      obtain ⟨decimal, rfl⟩ := numberIff.mp read
      exact .plus decimal
    case case2 rest =>
      obtain ⟨decimal, rfl⟩ := numberIff.mp ((integerMinus rest).symm.trans read)
      exact .minus decimal
    case case3 plus minus =>
      rw [integer?.eq_3 text plus minus] at read
      obtain ⟨decimal, rfl⟩ := numberIff.mp read
      exact .plain decimal
  · intro writes
    cases writes with
    | plus decimal => exact numberIff.mpr ⟨decimal, rfl⟩
    | minus decimal => exact (integerMinus _).trans (numberIff.mpr ⟨decimal, rfl⟩)
    | plain decimal =>
      rw [integer?.eq_3]
      · exact numberIff.mpr ⟨decimal, rfl⟩
      · rintro rest rfl
        exact signNoDigit rfl decimal
      · rintro rest rfl
        exact signNoDigit rfl decimal

theorem digitNotBlank {c : Char} (digit : c.isDigit = true) : isBlank c = false := by
  obtain ⟨low, high⟩ := isDigitIff.mp digit
  have low : 48 ≤ c.toNat := low
  have high : c.toNat ≤ 57 := high
  simp only [isBlank, Bool.or_eq_false_iff, Bool.and_eq_false_imp, decide_eq_true_eq, decide_eq_false_iff_not,
    Nat.not_le, beq_eq_false_iff_ne]
  omega

theorem Decimal.notBlank {digits : List Char} (decimal : Decimal digits) : ∀ c ∈ digits, isBlank c = false :=
  fun c member => digitNotBlank (decimal.digit c member)

theorem Writes.notBlank {numeral : List Char} {n : Int} (writes : Writes numeral n) :
    numeral ≠ [] ∧ ∀ c ∈ numeral, isBlank c = false := by
  cases writes with
  | plain decimal => exact ⟨decimal.given, decimal.notBlank⟩
  | plus decimal | minus decimal =>
    exact ⟨List.cons_ne_nil _ _, List.forall_mem_cons.mpr ⟨by decide, decimal.notBlank⟩⟩

theorem dropBlanks {before core : List Char} (blank : ∀ c ∈ before, isBlank c = true)
    (solid : ∀ c, core.head? = some c → isBlank c = false) : (before ++ core).dropWhile isBlank = core := by
  rw [List.dropWhile_append_of_pos blank]
  cases core with
  | nil => rfl
  | cons c rest => exact List.dropWhile_cons_of_neg (by simp [solid c rfl])

theorem trimSurrounded (text : List Char) :
    ∃ before after, text = before ++ trim text ++ after ∧
      (∀ c ∈ before, isBlank c = true) ∧ ∀ c ∈ after, isBlank c = true := by
  refine ⟨text.takeWhile isBlank, ((text.dropWhile isBlank).reverse.takeWhile isBlank).reverse, ?_, ?_, ?_⟩
  · rw [trim, List.append_assoc, ← List.reverse_append, List.takeWhile_append_dropWhile, List.reverse_reverse,
      List.takeWhile_append_dropWhile]
  · exact fun c member => List.mem_takeWhile_imp member
  · exact fun c member => List.mem_takeWhile_imp (List.mem_reverse.mp member)

theorem trimAround {before core after : List Char} (left : ∀ c ∈ before, isBlank c = true)
    (right : ∀ c ∈ after, isBlank c = true) (given : core ≠ []) (solid : ∀ c ∈ core, isBlank c = false) :
    trim (before ++ core ++ after) = core := by
  have start : (before ++ (core ++ after)).dropWhile isBlank = core ++ after := by
    refine dropBlanks left fun c first => solid c ?_
    rw [List.head?_append_of_ne_nil _ given] at first
    exact List.mem_of_head? first
  have stop : (after.reverse ++ core.reverse).dropWhile isBlank = core.reverse :=
    dropBlanks (fun c member => right c (List.mem_reverse.mp member))
      fun c last => solid c (List.mem_reverse.mp (List.mem_of_head? last))
  rw [trim, List.append_assoc, start, List.reverse_append, stop, List.reverse_reverse]

end Text

namespace Version

def Shows (piece : List Char) (item : Int64) : Prop :=
  ∃ before numeral after, piece = before ++ numeral ++ after ∧ (∀ c ∈ before, Text.isBlank c = true) ∧
    (∀ c ∈ after, Text.isBlank c = true) ∧ Text.Writes numeral item.toInt

theorem itemIff {piece : List Char} {item : Int64} : item? piece = some item ↔ Shows piece item := by
  have trimmed : item? piece = some item ↔ Text.Writes (Text.trim piece) item.toInt := by
    simp only [item?, Option.bind_eq_some_iff, Number.int64SomeIff, Text.integerIff, exists_eq_right']
  rw [trimmed]
  constructor
  · intro writes
    obtain ⟨before, after, split, left, right⟩ := Text.trimSurrounded piece
    exact ⟨before, _, after, split, left, right, writes⟩
  · rintro ⟨before, numeral, after, rfl, left, right, writes⟩
    -- a numeral has no blanks of its own, so trimming leaves it whole
    obtain ⟨given, solid⟩ := writes.notBlank
    rwa [Text.trimAround left right given solid]

theorem itemsIff {parts : List (List Char)} {items : List Int64} :
    items? parts = some items ↔ List.Forall₂ Shows parts items := by
  induction parts generalizing items with
  | nil => simp [items?, eq_comm]
  | cons piece rest ih =>
    simp only [items?, Option.bind_eq_some_iff, Option.map_eq_some_iff, itemIff, ih, List.forall₂_cons_left_iff]
    constructor
    · rintro ⟨item, here, others, shown, rfl⟩
      exact ⟨item, others, here, shown, rfl⟩
    · rintro ⟨item, others, here, shown, rfl⟩
      exact ⟨item, here, others, shown, rfl⟩

theorem piecesEq (text : List Char) : pieces text = text.splitOn '.' := by
  induction text with
  | nil => rfl
  | cons c rest ih =>
    rw [pieces, ih, List.splitOn_cons_eq_if_modifyHead]
    simp only [beq_iff_eq]
    split
    · rfl
    · cases split : rest.splitOn '.' with
      | nil => exact absurd split (List.splitOn_ne_nil '.' rest)
      | cons piece others => rfl

theorem parseIff {text : String} {v : Version} :
    parse? text = some v ↔ List.Forall₂ Shows (text.toList.splitOn '.') v.items := by
  rw [parse?, Option.map_eq_some_iff, piecesEq]
  constructor
  · rintro ⟨items, read, rfl⟩
    exact itemsIff.mp read
  · intro shown
    exact ⟨v.items, itemsIff.mpr shown, rfl⟩

def numeral (item : Int64) : List Char := (toString item.toInt).toList

theorem digitsOf (n : Nat) : Text.Decimal (Nat.toDigits 10 n) ∧ Text.worth (Nat.toDigits 10 n) = n :=
  ⟨⟨Nat.toDigits_ne_nil, fun _ member => Nat.isDigit_of_mem_toDigits (by decide) (by decide) member⟩,
    (Text.worthOfChars _).symm.trans Nat.ofDigitChars_ten_toDigits⟩

theorem numeralEq (item : Int64) :
    numeral item =
      if 0 ≤ item.toInt then Nat.toDigits 10 item.toInt.toNat else '-' :: Nat.toDigits 10 (-item.toInt).toNat := by
  rw [numeral, Int.toString_eq_repr, Int.repr_eq_if]
  split
  · exact Nat.toList_repr
  · rw [String.toList_append, Nat.toList_repr]
    rfl

theorem numeralWrites (item : Int64) : Text.Writes (numeral item) item.toInt := by
  rw [numeralEq]
  split
  case isTrue natural =>
    obtain ⟨decimal, worth⟩ := digitsOf item.toInt.toNat
    have writes := Text.Writes.plain decimal
    rwa [worth, Int.toNat_of_nonneg natural] at writes
  case isFalse negative =>
    obtain ⟨decimal, worth⟩ := digitsOf (-item.toInt).toNat
    have writes := Text.Writes.minus decimal
    rwa [worth, Int.toNat_of_nonneg (by omega), Int.neg_neg] at writes

theorem numeralDotless (item : Int64) : '.' ∉ numeral item := by
  have digits (n : Nat) : '.' ∉ Nat.toDigits 10 n := by
    intro member
    exact absurd ((digitsOf n).1.digit _ member) (by decide)
  rw [numeralEq]
  split
  · exact digits _
  · simp [digits]

theorem textPieces {v : Version} (given : v.items ≠ []) : v.text.toList.splitOn '.' = v.items.map numeral := by
  have joined : v.text.toList = ['.'].intercalate (v.items.map numeral) := by
    rw [text, String.toList_intercalate, List.map_map]
    rfl
  rw [joined]
  refine List.splitOn_intercalate '.' (fun piece member => ?_) (by simpa using given)
  obtain ⟨item, _, rfl⟩ := List.mem_map.mp member
  exact numeralDotless item

theorem textParsed {v : Version} (given : v.items ≠ []) : parse? v.text = some v := by
  rw [parseIff, textPieces given, List.forall₂_map_left_iff, List.forall₂_same]
  intro item _
  exact ⟨[], numeral item, [], by simp, by simp, by simp, numeralWrites item⟩

theorem parsedGiven {text : String} {v : Version} (read : parse? text = some v) : v.items ≠ [] := by
  intro none
  have shown := (parseIff.mp read).length_eq
  rw [none, List.length_nil, List.length_eq_zero_iff] at shown
  exact List.splitOn_ne_nil '.' text.toList shown

theorem parseSucceeds {text : String} :
    (∃ v, parse? text = some v) ↔ ∀ piece ∈ text.toList.splitOn '.', ∃ item, Shows piece item := by
  rw [← relatedEach]
  constructor
  · rintro ⟨v, read⟩
    exact ⟨v.items, parseIff.mp read⟩
  · rintro ⟨items, shown⟩
    exact ⟨⟨items⟩, parseIff.mpr shown⟩

theorem textRoundTrip :
    (∀ v : Version, parse? v.text = some v ↔ v.items ≠ []) ∧
      (∀ text : String, (∃ v, parse? text = some v) ↔ ∀ piece ∈ text.toList.splitOn '.', ∃ item, Shows piece item) ∧
      ∀ (text : String) (v : Version), parse? text = some v →
        List.Forall₂ Shows (text.toList.splitOn '.') v.items ∧ parse? v.text = some v := by
  refine ⟨fun v => ⟨parsedGiven, textParsed⟩, fun text => parseSucceeds, fun text v read => ?_⟩
  exact ⟨parseIff.mp read, textParsed (parsedGiven read)⟩

theorem paddedVersionRead :
    parse? " +007 .-9223372036854775808" = some ⟨[7, Int64.minValue]⟩ ∧
      List.Forall₂ Shows (" +007 .-9223372036854775808".toList.splitOn '.') [7, Int64.minValue] ∧
      parse? (text ⟨[7, Int64.minValue]⟩) = some ⟨[7, Int64.minValue]⟩ :=
  have read : parse? " +007 .-9223372036854775808" = some ⟨[7, Int64.minValue]⟩ := by decide +kernel
  ⟨read, textRoundTrip.2.2 _ _ read⟩

end Version

end Cqasm
