import Cqasm.Proofs.Arithmetic
import Cqasm.Proofs.Fallible
import Cqasm.Proofs.Letters
import Cqasm.Ty.Shorthand

/-! Types written in the codes of language version 1. A specification is read exactly when it has no offending code,
each code then stands for a type of its own, and the sizes of all types are 64-bit integers. -/
namespace Cqasm

def Shape.sides : Shape → List Int
  | .scalar _ => []
  | .array _ n => [n]
  | .matrix _ rows cols => [rows, cols]

/- The number of elements where integers have no limit. -/
def Shape.elements : Shape → Int
  | .matrix _ rows cols => if rows < 0 ∨ cols < 0 then unconstrained else rows * cols
  | shape => shape.size

instance (n : Int) : Decidable (Representable n) := inferInstanceAs (Decidable (_ ∧ _))

theorem Shape.sizeExact {shape : Shape} (fits : Representable shape.elements) : shape.size = shape.elements := by
  cases shape with
  | scalar | array => rfl
  | matrix entry rows cols =>
    simp only [size, elements] at fits ⊢
    split
    case isTrue => rfl
    case isFalse closed =>
      rw [if_neg closed] at fits
      exact Int64.toInt_ofInt_of_le fits.1 fits.2

namespace Ty

def plainLetters : List (Char × Shape) :=
  [('q', .scalar .qubit), ('a', .scalar .axis), ('b', .scalar .bool), ('i', .scalar .int), ('r', .scalar .float),
    ('c', .scalar .complex), ('m', .matrix .real unconstrained unconstrained),
    ('n', .matrix .complex unconstrained unconstrained), ('s', .scalar .string), ('j', .scalar .json)]

def letters (n : Nat) : List (Char × Shape) := ('u', .matrix .complex (2 ^ n) (2 ^ n)) :: plainLetters

def codeLetters : List Char := ['u', 'q', 'a', 'b', 'i', 'r', 'c', 'm', 'n', 's', 'j']

def Known (c : Char) : Prop := c.isAlpha = true ∧ c.toLower ∈ codeLetters

inductive Offends (n : Nat) : Char → ShorthandError → Prop where
  | lowercaseQubit : Offends n 'q' .lowercaseQubit
  | unknownCode {c} (unknown : ¬ Known c) : Offends n c (.unknownCode c)
  | tooManyQubits {c} (unitary : c = 'u' ∨ c = 'U') (many : 31 < n) : Offends n c (.tooManyQubits n)

structure Reads (n : Nat) (c : Char) (t : Ty) : Prop where
  shape : (letters n).lookup c.toLower = some t.shape
  unitary : c = 'u' ∨ c = 'U' → t.shape = .matrix .complex (2 ^ n) (2 ^ n)
  assignable : t.assignable = c.isUpper
  size : t.size = t.shape.elements
  fits : Representable t.shape.elements
  sides : ∀ side ∈ t.shape.sides, Representable side

theorem int64Representable {n : Int} : (Number.int64? n).isSome = true ↔ Representable n := by
  rw [← not_iff_not, Bool.not_eq_true, Option.isSome_eq_false_iff, Option.isNone_iff_eq_none, Number.int64NoneIff,
    Int64.toInt_minValue, Int64.toInt_maxValue, Representable]
  omega

theorem powerRepresentable (k : Nat) : Representable (2 ^ k) ↔ k < 63 := by
  have positive : (0 : Int) < 2 ^ k := Int.pow_pos (by decide)
  have below : (2 : Int) ^ k < 2 ^ 63 ↔ k < 63 := pow_lt_pow_iff_right₀ (by decide)
  unfold Representable
  omega

theorem unitaryRepresentable (n : Nat) : Representable (2 ^ n) ∧ Representable (2 ^ n * 2 ^ n) ↔ n ≤ 31 := by
  have square : (2 : Int) ^ n * 2 ^ n = 2 ^ (n + n) := (pow_add 2 n n).symm
  rw [square, powerRepresentable, powerRepresentable]
  omega

theorem unitarySideEq (n : Nat) : unitarySide n = if n ≤ 31 then .ok (2 ^ n) else .error (.tooManyQubits n) := by
  have power : Int.pow 2 n = 2 ^ n := rfl
  simp only [unitarySide, power, int64Representable, unitaryRepresentable]

theorem codeEq (n : Nat) (c : Char) :
    ofCodeV1 n c =
      if c = 'q' then .error .lowercaseQubit
      else if c.toLower = 'u' ∧ 31 < n then .error (.tooManyQubits n)
      else ((letters n).lookup c.toLower).elim (.error (.unknownCode c)) fun shape => .ok ⟨shape, c.isUpper⟩ := by
  have small : c = 'q' ↔ c.toLower = 'q' ∧ c.isUpper = false := by
    constructor
    · rintro rfl
      decide
    · rintro ⟨lower, other⟩
      rw [← lower, Letter.lowerUnchanged other]
  unfold ofCodeV1
  simp only [small, unitarySideEq]
  -- the qubit is refused in lower case, the unitary by its size, and the last case is that of no code at all
  split
  case h_1 lower =>
    rw [lower]
    cases c.isUpper <;> rfl
  case h_7 lower =>
    rw [lower]
    by_cases few : n ≤ 31
    · simp only [few, Nat.not_lt.mpr few, if_true, if_false, and_false]
      rfl
    · simp only [few, Nat.lt_of_not_le few, if_true, if_false, and_true]
      rfl
  case h_12 =>
    have none : (letters n).lookup c.toLower = none := List.lookup_eq_none_iff.mpr (by simp_all [letters, plainLetters])
    have qubit : c.toLower ≠ 'q' := by assumption
    have unitary : c.toLower ≠ 'u' := by assumption
    rw [none, if_neg fun both => qubit both.1, if_neg fun both => unitary both.1, Option.elim_none]
  all_goals
    rename_i lower
    rw [lower]
    rfl

theorem knownIff (n : Nat) (c : Char) : Known c ↔ ((letters n).lookup c.toLower).isSome = true := by
  have keys : ((letters n).lookup c.toLower).isSome = true ↔ c.toLower ∈ codeLetters := by
    simp [List.lookup_isSome_iff, letters, plainLetters, codeLetters]
  have alphabetic : codeLetters.all Char.isAlpha = true := rfl
  rw [keys, Known, and_iff_right_iff_imp]
  intro member
  rw [← Letter.lowerAlpha c]
  exact List.all_eq_true.mp alphabetic c.toLower member

theorem lowerUnitary {c : Char} : c.toLower = 'u' ↔ c = 'u' ∨ c = 'U' := by
  have small : 'u'.toNat = 117 := rfl
  have capital : 'U'.toNat = 85 := rfl
  rw [← Char.toNat_inj, ← Char.toNat_inj, ← Char.toNat_inj, Letter.lowerCode, small, capital]
  grind

theorem letterSized {n : Nat} {k : Char} {shape : Shape} (letter : (k, shape) ∈ letters n) (few : k = 'u' → n ≤ 31) :
    Representable shape.elements ∧ ∀ side ∈ shape.sides, Representable side := by
  have plain : ∀ p ∈ plainLetters, Representable p.2.elements ∧ ∀ side ∈ p.2.sides, Representable side := by decide
  rcases List.mem_cons.mp letter with unitary | other
  · cases unitary
    obtain ⟨side, entries⟩ := (unitaryRepresentable n).mpr (few rfl)
    have positive : (0 : Int) < 2 ^ n := Int.pow_pos (by decide)
    refine ⟨?_, by simpa [Shape.sides] using side⟩
    rwa [Shape.elements, if_neg (by omega)]
  · exact plain _ other

theorem codeReads {n : Nat} {c : Char} {t : Ty} (read : ofCodeV1 n c = .ok t) : Reads n c t := by
  rw [codeEq] at read
  split at read
  case isTrue => cases read
  case isFalse =>
    split at read
    case isTrue => cases read
    case isFalse few =>
      cases found : (letters n).lookup c.toLower with
      | none => simp [found] at read
      | some shape =>
        rw [found] at read
        cases read
        obtain ⟨_, _, split, _⟩ := List.lookup_eq_some_iff.mp found
        have letter : (c.toLower, shape) ∈ letters n := split ▸ List.mem_append_right _ List.mem_cons_self
        obtain ⟨fits, sides⟩ := letterSized letter fun lower => Nat.not_lt.mp fun many => few ⟨lower, many⟩
        have unitary (given : c = 'u' ∨ c = 'U') : shape = .matrix .complex (2 ^ n) (2 ^ n) := by
          rw [lowerUnitary.mpr given] at found
          exact (Option.some.inj found).symm
        exact ⟨found, unitary, rfl, Shape.sizeExact fits, fits, sides⟩

theorem codeError {n : Nat} {c : Char} {e : ShorthandError} : ofCodeV1 n c = .error e ↔ Offends n c e := by
  rw [codeEq]
  constructor
  · intro failed
    split at failed
    case isTrue small =>
      cases failed
      exact small ▸ .lowercaseQubit
    case isFalse =>
      split at failed
      case isTrue unitary =>
        cases failed
        exact .tooManyQubits (lowerUnitary.mp unitary.1) unitary.2
      case isFalse =>
        cases found : (letters n).lookup c.toLower with
        | some shape => simp [found] at failed
        | none =>
          rw [found] at failed
          cases failed
          exact .unknownCode (by simp [knownIff n, found])
  · intro offends
    cases offends with
    | lowercaseQubit => rw [if_pos rfl]
    | unknownCode unknown =>
      rw [knownIff n, Bool.not_eq_true, Option.isSome_eq_false_iff, Option.isNone_iff_eq_none] at unknown
      have qubit : c ≠ 'q' := by
        rintro rfl
        cases unknown
      have unitary : c.toLower ≠ 'u' := by
        intro lower
        rw [lower] at unknown
        cases unknown
      rw [if_neg qubit, if_neg fun both => unitary both.1, unknown, Option.elim_none]
    | tooManyQubits unitary many =>
      have other : c ≠ 'q' := by rcases unitary with rfl | rfl <;> decide
      rw [if_neg other, if_pos ⟨lowerUnitary.mpr unitary, many⟩]

theorem codeSucceeds {n : Nat} {c : Char} : (∃ t, ofCodeV1 n c = .ok t) ↔ ∀ e, ¬ Offends n c e := by
  simp only [← codeError]
  cases ofCodeV1 n c <;> simp

theorem soundIff {n : Nat} {c : Char} :
    (∀ e, ¬ Offends n c e) ↔ c ≠ 'q' ∧ Known c ∧ (c = 'u' ∨ c = 'U' → n ≤ 31) := by
  constructor
  · intro sound
    refine ⟨?_, ?_, fun unitary => ?_⟩
    · rintro rfl
      exact sound _ .lowercaseQubit
    · by_contra unknown
      exact sound _ (.unknownCode unknown)
    · by_contra many
      exact sound _ (.tooManyQubits unitary (Nat.lt_of_not_le many))
  · rintro ⟨qubit, known, few⟩ e offends
    cases offends with
    | lowercaseQubit => exact qubit rfl
    | unknownCode unknown => exact unknown known
    | tooManyQubits unitary many => exact absurd (few unitary) (Nat.not_le.mpr many)

section Codes

variable {read : Char → Except ShorthandError Ty} {codes : List Char}

theorem codesOk {types : List Ty} :
    ofCodesWith read codes = .ok types ↔ List.Forall₂ (fun c t => read c = .ok t) codes types := by
  induction codes generalizing types with
  | nil => simp [ofCodesWith, eq_comm]
  | cons c codes ih =>
    simp only [ofCodesWith, bindOk, pureOk, ih, List.forall₂_cons_left_iff]
    constructor
    · rintro ⟨t, here, ts, others, rfl⟩
      exact ⟨t, ts, here, others, rfl⟩
    · rintro ⟨t, ts, here, others, rfl⟩
      exact ⟨t, here, ts, others, rfl⟩

theorem codesSucceed : (∃ types, ofCodesWith read codes = .ok types) ↔ ∀ c ∈ codes, ∃ t, read c = .ok t := by
  simp only [codesOk, relatedEach]

theorem codesError {e : ShorthandError} :
    ofCodesWith read codes = .error e ↔
      ∃ before c after, codes = before ++ c :: after ∧ (∀ b ∈ before, ∃ t, read b = .ok t) ∧ read c = .error e := by
  induction codes with
  | nil => simp [ofCodesWith]
  | cons c codes ih =>
    simp only [ofCodesWith, bindError, ih]
    constructor
    · rintro (here | ⟨t, first, ⟨before, b, after, rfl, earlier, failed⟩ | ⟨ts, _, impossible⟩⟩)
      · exact ⟨[], c, codes, rfl, by simp, here⟩
      · exact ⟨c :: before, b, after, rfl, List.forall_mem_cons.mpr ⟨⟨t, first⟩, earlier⟩, failed⟩
      · cases impossible
    · rintro ⟨before, b, after, split, earlier, failed⟩
      cases before with
      | nil =>
        cases split
        exact .inl failed
      | cons first before =>
        cases split
        obtain ⟨⟨t, read⟩, others⟩ := List.forall_mem_cons.mp earlier
        exact .inr ⟨t, read, .inl ⟨before, b, after, rfl, others, failed⟩⟩

end Codes

theorem shorthandExact (spec : String) :
    ((∃ types, ofCodesV1 spec = .ok types) ↔
      'q' ∉ spec.toList ∧ (∀ c ∈ spec.toList, Known c) ∧
        ('u' ∉ spec.toList ∧ 'U' ∉ spec.toList ∨ spec.toList.count 'Q' ≤ 31)) ∧
    (∀ types, ofCodesV1 spec = .ok types → List.Forall₂ (Reads (spec.toList.count 'Q')) spec.toList types) ∧
    ∀ e, ofCodesV1 spec = .error e ↔
      ∃ before c after, spec.toList = before ++ c :: after ∧
        (∀ b ∈ before, ∀ other, ¬ Offends (spec.toList.count 'Q') b other) ∧ Offends (spec.toList.count 'Q') c e := by
  refine ⟨?_, fun types read => (codesOk.mp read).imp fun _ _ => codeReads, fun e => ?_⟩
  · simp only [ofCodesV1, codesSucceed, codeSucceeds, soundIff]
    constructor
    · intro each
      refine ⟨fun member => (each _ member).1 rfl, fun c member => (each c member).2.1, ?_⟩
      by_cases few : spec.toList.count 'Q' ≤ 31
      · exact .inr few
      · exact .inl ⟨fun member => few ((each _ member).2.2 (.inl rfl)),
          fun member => few ((each _ member).2.2 (.inr rfl))⟩
    · rintro ⟨qubit, known, few⟩ c member
      refine ⟨fun same => qubit (same ▸ member), known c member, fun unitary => ?_⟩
      rcases few with none | few
      · rcases unitary with rfl | rfl
        · exact absurd member none.1
        · exact absurd member none.2
      · exact few
  · simp only [ofCodesV1, codesError, codeSucceeds, codeError]

end Ty

end Cqasm
