import Mathlib.Data.Rat.Floor
import Cqasm.Proofs.FunctionResolution

/-! Arithmetic on integer constants. What an operator gives is the mathematical result, or a fault where there is none
in 64 bits. Division rounds down, whichever signs its arguments have, and a shift multiplies or divides by a power of
two. -/
namespace Cqasm

def Representable (n : Int) : Prop := -2 ^ 63 ≤ n ∧ n < 2 ^ 63

theorem toIntRepresentable (a : Int64) : Representable a.toInt := ⟨a.le_toInt, a.toInt_lt⟩

theorem toIntNonzero {b : Int64} : b.toInt ≠ 0 ↔ b ≠ 0 := by
  rw [Ne, ← Int64.toInt_zero, Int64.toInt_inj]

theorem toIntNegative {b : Int64} : b.toInt < 0 ↔ b < 0 := by
  rw [Int64.lt_iff_toInt_lt, Int64.toInt_zero]

theorem toIntLeast {a b : Int64} : (a.toInt = -2 ^ 63 ∧ b.toInt = -1) ↔ a = Int64.minValue ∧ b = -1 := by
  rw [← Int64.toInt_minValue, show (-1 : Int) = (-1 : Int64).toInt from rfl, Int64.toInt_inj, Int64.toInt_inj]

namespace Builtin

theorem inRangeRepresentable (operation : String) {n : Int} (range : Representable n) :
    inRange operation n = .ok (.ofInt n) := by
  have inside : Int64.minValue.toInt ≤ n ∧ n ≤ Int64.maxValue.toInt := ⟨range.1, Int.le_sub_one_of_lt range.2⟩
  have found : Number.int64? n = some (.ofInt n) := if_pos inside
  simp [inRange, found]

theorem inRangeOther (operation : String) {n : Int} (outside : ¬ Representable n) :
    inRange operation n = .error (.overflow operation) := by
  have none : Number.int64? n = none := by
    rw [Number.int64NoneIff, Int64.toInt_minValue, Int64.toInt_maxValue]
    unfold Representable at outside
    omega
  simp [inRange, none]

theorem fdivFloor (n d : Int) : n.fdiv d = ⌊(n : ℚ) / d⌋ := by
  have byNatural (n : Int) (k : Nat) : n.fdiv k = ⌊(n : ℚ) / (k : Int)⌋ := by
    rw [Int.fdiv_eq_ediv_of_nonneg n (Int.natCast_nonneg k), Int.cast_natCast, Rat.floor_intCast_div_natCast]
  obtain ⟨k, rfl | rfl⟩ := d.eq_nat_or_neg
  · exact byNatural n k
  · rw [← Int.neg_fdiv_neg, Int.neg_neg, byNatural, Int.cast_neg, Int.cast_neg, neg_div, div_neg]

theorem fmodSmall (n : Int) {d : Int} (nonzero : d ≠ 0) :
    (0 < d ∧ 0 ≤ n.fmod d ∧ n.fmod d < d) ∨ (d < 0 ∧ d < n.fmod d ∧ n.fmod d ≤ 0) := by
  rcases Int.lt_or_gt_of_ne nonzero with negative | positive
  · have low := Int.fmod_nonneg_of_pos (-n) (Int.neg_pos_of_neg negative)
    have high := Int.fmod_lt_of_pos (-n) (Int.neg_pos_of_neg negative)
    rw [Int.neg_fmod_neg] at low high
    omega
  · exact .inl ⟨positive, Int.fmod_nonneg_of_pos n positive, Int.fmod_lt_of_pos n positive⟩

theorem fmodRepresentable (n : Int) {d : Int} (divisor : Representable d) (nonzero : d ≠ 0) :
    Representable (n.fmod d) := by
  have small := fmodSmall n nonzero
  unfold Representable at divisor ⊢
  omega

theorem fdivRepresentable {n d : Int} (dividend : Representable n) (nonzero : d ≠ 0)
    (other : ¬ (n = -2 ^ 63 ∧ d = -1)) : Representable (n.fdiv d) := by
  have identity := Int.mul_fdiv_add_fmod n d
  have small := fmodSmall n nonzero
  generalize n.fdiv d = q at identity ⊢
  generalize n.fmod d = r at identity small
  obtain ⟨least, most⟩ := dividend
  constructor
  · by_contra below
    rcases small with ⟨positive, _, _⟩ | ⟨negative, _, _⟩ <;> nlinarith
  · by_contra above
    rcases small with ⟨positive, _, _⟩ | ⟨negative, _, _⟩
    · nlinarith
    · by_cases unit : d = -1
      · subst unit
        omega
      · have steep : d ≤ -2 := by omega
        nlinarith

theorem fdivCorrected (n : Int) {d : Int} (nonzero : d ≠ 0) :
    n.fdiv d = if n.tmod d ≠ 0 ∧ ¬ (n < 0 ↔ d < 0) then n.tdiv d - 1 else n.tdiv d := by
  rw [Int.fdiv_eq_tdiv]
  simp only [Int.dvd_iff_tmod_eq_zero]
  rcases Int.lt_or_gt_of_ne nonzero with negative | positive
  · rw [Int.sign_eq_neg_one_of_neg negative]
    grind
  · rw [Int.sign_eq_one_of_pos positive]
    grind

theorem fmodCorrected (n d : Int) :
    n.fmod d = if n.tmod d ≠ 0 ∧ ¬ (n.tmod d < 0 ↔ d < 0) then n.tmod d + d else n.tmod d := by
  -- what is left over has the sign of the dividend
  have sign : n.tmod d < 0 ↔ n.tmod d ≠ 0 ∧ n < 0 := by
    rcases Int.lt_or_le n 0 with negative | nonneg
    · have opposite := Int.tmod_nonneg d (Int.neg_nonneg_of_nonpos (Int.le_of_lt negative))
      rw [Int.neg_tmod] at opposite
      omega
    · have same := Int.tmod_nonneg d nonneg
      omega
  rw [Int.fmod_eq_tmod]
  simp only [Int.dvd_iff_tmod_eq_zero]
  grind

def Undefined (a b : Int64) : Prop := b = 0 ∨ a = Int64.minValue ∧ b = -1

structure Floored (a b q r : Int64) : Prop where
  identity : a.toInt = b.toInt * q.toInt + r.toInt
  floor : q.toInt = ⌊(a.toInt : ℚ) / b.toInt⌋
  small : |r.toInt| < |b.toInt|
  sign : r.toInt = 0 ∨ r.toInt.sign = b.toInt.sign

structure Corrected (a b q r : Int64) : Prop where
  quotient : q = if a % b ≠ 0 ∧ ¬ (a < 0 ↔ b < 0) then a / b - 1 else a / b
  quotientFits : a % b ≠ 0 ∧ ¬ (a < 0 ↔ b < 0) → (a / b - 1).toInt = (a / b).toInt - 1
  remainder : r = if a % b ≠ 0 ∧ ¬ (a % b < 0 ↔ b < 0) then a % b + b else a % b
  remainderFits : a % b ≠ 0 ∧ ¬ (a % b < 0 ↔ b < 0) → (a % b + b).toInt = (a % b).toInt + b.toInt

section Division

variable {a b : Int64}

theorem flooredOf {q r : Int64} (nonzero : b ≠ 0) (quotient : q.toInt = a.toInt.fdiv b.toInt)
    (remainder : r.toInt = a.toInt.fmod b.toInt) : Floored a b q r where
  identity := by rw [quotient, remainder, Int.mul_fdiv_add_fmod]
  floor := by rw [quotient, fdivFloor]
  small := by
    rw [remainder]
    rcases fmodSmall a.toInt (toIntNonzero.mpr nonzero) with ⟨positive, low, high⟩ | ⟨negative, low, high⟩
    · rwa [abs_of_nonneg low, abs_of_pos positive]
    · rw [abs_of_nonpos high, abs_of_neg negative]
      exact Int.neg_lt_neg low
  sign := by
    rw [remainder]
    rcases fmodSmall a.toInt (toIntNonzero.mpr nonzero) with ⟨positive, low, _⟩ | ⟨negative, _, high⟩
    · rcases Int.lt_or_eq_of_le low with above | none
      · exact .inr (by rw [Int.sign_eq_one_of_pos above, Int.sign_eq_one_of_pos positive])
      · exact .inl none.symm
    · rcases Int.lt_or_eq_of_le high with below | none
      · exact .inr (by rw [Int.sign_eq_neg_one_of_neg below, Int.sign_eq_neg_one_of_neg negative])
      · exact .inl none

theorem truncatedQuotient (other : ¬ (a = Int64.minValue ∧ b = -1)) : (a / b).toInt = a.toInt.tdiv b.toInt := by
  by_cases least : a = Int64.minValue
  · exact Int64.toInt_div_of_ne_right a b fun unit => other ⟨least, unit⟩
  · exact Int64.toInt_div_of_ne_left a b least

theorem correctionExact {p : Prop} [Decidable p] {x y z : Int64} {n : Int} (exact : x.toInt = if p then n else z.toInt)
    (wrapped : y.toInt = n.bmod (2 ^ 64)) : x = (if p then y else z) ∧ (p → y.toInt = n) := by
  by_cases made : p
  · rw [if_pos made] at exact ⊢
    have same : y.toInt = x.toInt := by
      rw [wrapped, ← exact]
      exact x.toInt_bmod
    exact ⟨(Int64.toInt_inj.mp same).symm, fun _ => same.trans exact⟩
  · rw [if_neg made] at exact ⊢
    exact ⟨Int64.toInt_inj.mp exact, fun now => absurd now made⟩

theorem correctedOf {q r : Int64} (defined : ¬ Undefined a b) (quotient : q.toInt = a.toInt.fdiv b.toInt)
    (remainder : r.toInt = a.toInt.fmod b.toInt) : Corrected a b q r := by
  obtain ⟨nonzero, other⟩ := not_or.mp defined
  rw [fdivCorrected a.toInt (toIntNonzero.mpr nonzero), ← truncatedQuotient other] at quotient
  rw [fmodCorrected] at remainder
  simp only [← Int64.toInt_mod, toIntNonzero, toIntNegative] at quotient remainder
  have down := correctionExact quotient (Int64.toInt_sub (a / b) 1)
  have left := correctionExact remainder (Int64.toInt_add (a % b) b)
  exact ⟨down.1, down.2, left.1, left.2⟩

theorem divideDefined (defined : ¬ Undefined a b) :
    ∃ q r, divide a b = .ok q ∧ remainder a b = .ok r ∧ Floored a b q r ∧ Corrected a b q r := by
  obtain ⟨nonzero, other⟩ := not_or.mp defined
  have quotient : Representable (a.toInt.fdiv b.toInt) :=
    fdivRepresentable (toIntRepresentable a) (toIntNonzero.mpr nonzero) (mt toIntLeast.mp other)
  have left : Representable (a.toInt.fmod b.toInt) :=
    fmodRepresentable a.toInt (toIntRepresentable b) (toIntNonzero.mpr nonzero)
  have quotientIs := Int64.toInt_ofInt_of_le quotient.1 quotient.2
  have leftIs := Int64.toInt_ofInt_of_le left.1 left.2
  refine ⟨_, _, ?_, ?_, flooredOf nonzero quotientIs leftIs, correctedOf defined quotientIs leftIs⟩
  · rw [divide, if_neg nonzero, inRangeRepresentable "/" quotient]
  · rw [Builtin.remainder, if_neg nonzero, if_neg other, inRangeRepresentable "%" left]

theorem divideUndefined (undefined : Undefined a b) :
    ∃ fault, divide a b = .error fault ∧ ∃ other, remainder a b = .error other := by
  rcases undefined with rfl | ⟨rfl, rfl⟩
  · exact ⟨_, if_pos rfl, _, if_pos rfl⟩
  · exact ⟨.overflow "/", rfl, .overflow "%", rfl⟩

end Division

theorem shiftAmount {b : Int64} (inside : 0 ≤ b ∧ b < 64) : (b.toBitVec.smod 64).toNat = b.toInt.toNat := by
  have low : 0 ≤ b.toInt := Int64.le_iff_toInt_le.mp inside.1
  have high : b.toInt < 64 := Int64.lt_iff_toInt_lt.mp inside.2
  have same : (b.toBitVec.smod 64).toInt = b.toInt := by
    rw [BitVec.toInt_smod, Int64.toInt_toBitVec]
    exact (Int.fmod_eq_emod_of_nonneg _ (by decide)).trans (Int.emod_eq_of_lt low high)
  have bits := BitVec.toInt_eq_toNat_cond (b.toBitVec.smod 64)
  have bound := (b.toBitVec.smod 64).isLt
  rw [same] at bits
  split at bits <;> omega

theorem shiftLeftToInt (a : Int64) {b : Int64} (inside : 0 ≤ b ∧ b < 64) :
    (a <<< b).toInt = (a.toInt * 2 ^ b.toInt.toNat).bmod (2 ^ 64) := by
  rw [← Int64.toInt_toBitVec, Int64.toBitVec_shiftLeft, BitVec.shiftLeft_eq', shiftAmount inside,
    BitVec.toInt_shiftLeft, Nat.shiftLeft_eq, ← Int64.toInt_toBitVec a, BitVec.toInt_eq_toNat_bmod a.toBitVec,
    Int.bmod_mul_bmod, Int.natCast_mul, Int.natCast_pow]
  rfl

theorem shiftRightToInt (a : Int64) {b : Int64} (inside : 0 ≤ b ∧ b < 64) :
    (a >>> b).toInt = ⌊(a.toInt : ℚ) / 2 ^ b.toInt.toNat⌋ := by
  rw [← Int64.toInt_toBitVec, Int64.toBitVec_shiftRight, BitVec.sshiftRight_eq', shiftAmount inside,
    BitVec.toInt_sshiftRight, Int.shiftRight_eq_div_pow, ← Rat.floor_intCast_div_natCast, Int64.toInt_toBitVec,
    Nat.cast_pow]
  rfl

end Builtin

namespace Analyzer

open Builtin

def ints (is : List Int64) : List Value := is.map fun i => .const (.int i)

theorem resolveInt {name : String} {f : Int64 → Except Fault Int64}
    (selected : selected? .sensitive name (ints [0]) = some (unary name f)) (a : Int64) :
    standard.resolveFunction name (ints [a]) = (f a).map Payload.toValue := by
  have types : (ints [a]).map Value.type = (ints [0]).map Value.type := rfl
  have chosen : selected? .sensitive name (ints [a]) = some (unary name f) := by rw [selectedByTypes types, selected]
  exact (Scope.resolveNative standardBuiltins chosen rfl rfl).1.trans (unaryNative name f rfl)

theorem resolveInts {name : String} {f : Int64 → Int64 → Except Fault Int64}
    (selected : selected? .sensitive name (ints [0, 0]) = some (binary name f)) (a b : Int64) :
    standard.resolveFunction name (ints [a, b]) = (f a b).map Payload.toValue := by
  have types : (ints [a, b]).map Value.type = (ints [0, 0]).map Value.type := rfl
  have chosen : selected? .sensitive name (ints [a, b]) = some (binary name f) := by
    rw [selectedByTypes types, selected]
  exact (Scope.resolveNative standardBuiltins chosen rfl rfl).1.trans (binaryNative name f rfl rfl)

def Rejected (result : Except Fault Value) : Prop := ∃ fault, result = .error fault ∧ fault.kind = .evaluation

theorem rejectedOf {r : Except Fault Int64} {fault : Fault} (evaluates : Evaluates r) (failed : r = .error fault) :
    Rejected (r.map Payload.toValue) := ⟨fault, by rw [failed]; rfl, evaluates fault failed⟩

structure Exact (n : Int) (result : Except Fault Value) : Prop where
  fits : Representable n → ∃ i : Int64, result = .ok (.const (.int i)) ∧ i.toInt = n
  rejected : ¬ Representable n → Rejected result

theorem exactInRange (operation : String) (n : Int) : Exact n ((inRange operation n).map Payload.toValue) where
  fits range := by
    rw [inRangeRepresentable operation range]
    exact ⟨_, rfl, Int64.toInt_ofInt_of_le range.1 range.2⟩
  rejected outside := rejectedOf (evaluatesInRange operation n) (inRangeOther operation outside)

structure Divides (a b : Int64) (quotient remainder : Except Fault Value) : Prop where
  undefined : Undefined a b → Rejected quotient ∧ Rejected remainder
  floored : ¬ Undefined a b → ∃ q r : Int64, quotient = .ok (.const (.int q)) ∧ remainder = .ok (.const (.int r)) ∧
    Floored a b q r ∧ Corrected a b q r

structure Shifts (a b : Int64) (left right : Except Fault Value) : Prop where
  outside : ¬ (0 ≤ b ∧ b < 64) → Rejected left ∧ Rejected right
  inside : 0 ≤ b ∧ b < 64 → ∃ l r : Int64, left = .ok (.const (.int l)) ∧ right = .ok (.const (.int r)) ∧
    l.toInt = (a.toInt * 2 ^ b.toInt.toNat).bmod (2 ^ 64) ∧ r.toInt = ⌊(a.toInt : ℚ) / 2 ^ b.toInt.toNat⌋

theorem dividesDown (a b : Int64) :
    Divides a b (standard.resolveFunction "operator/" (ints [a, b]))
      (standard.resolveFunction "operator%" (ints [a, b])) where
  undefined undefined := by
    obtain ⟨_, quotient, _, left⟩ := divideUndefined undefined
    rw [resolveInts rfl, resolveInts rfl]
    exact ⟨rejectedOf (evaluatesDivide a b) quotient, rejectedOf (evaluatesRemainder a b) left⟩
  floored defined := by
    obtain ⟨q, r, quotient, left, floored, corrected⟩ := divideDefined defined
    refine ⟨q, r, ?_, ?_, floored, corrected⟩
    · rw [resolveInts rfl, quotient]
      rfl
    · rw [resolveInts rfl, left]
      rfl

theorem shiftsByPowers (a b : Int64) :
    Shifts a b (standard.resolveFunction "operator<<" (ints [a, b]))
      (standard.resolveFunction "operator>>" (ints [a, b])) where
  outside outside := by
    rw [resolveInts rfl, resolveInts rfl]
    exact ⟨rejectedOf (evaluatesShift b _) (if_neg outside), rejectedOf (evaluatesShift b _) (if_neg outside)⟩
  inside inside := by
    have left : shiftLeft a b = .ok (a <<< b) := if_pos inside
    have right : shiftRight a b = .ok (a >>> b) := if_pos inside
    refine ⟨a <<< b, a >>> b, ?_, ?_, shiftLeftToInt a inside, shiftRightToInt a inside⟩
    · rw [resolveInts rfl, left]
      rfl
    · rw [resolveInts rfl, right]
      rfl

theorem integerArithmeticExact (a b : Int64) :
    Exact (-a.toInt) (standard.resolveFunction "operator-" (ints [a])) ∧
    Exact |a.toInt| (standard.resolveFunction "abs" (ints [a])) ∧
    Exact (a.toInt + b.toInt) (standard.resolveFunction "operator+" (ints [a, b])) ∧
    Exact (a.toInt - b.toInt) (standard.resolveFunction "operator-" (ints [a, b])) ∧
    Exact (a.toInt * b.toInt) (standard.resolveFunction "operator*" (ints [a, b])) ∧
    Divides a b (standard.resolveFunction "operator/" (ints [a, b]))
      (standard.resolveFunction "operator%" (ints [a, b])) ∧
    Shifts a b (standard.resolveFunction "operator<<" (ints [a, b]))
      (standard.resolveFunction "operator>>" (ints [a, b])) := by
  refine ⟨?_, ?_, ?_, ?_, ?_, dividesDown a b, shiftsByPowers a b⟩
  · rw [resolveInt rfl]
    exact exactInRange "-" _
  · rw [resolveInt rfl, ← Int.natCast_natAbs]
    exact exactInRange "abs" _
  · rw [resolveInts rfl]
    exact exactInRange "+" _
  · rw [resolveInts rfl]
    exact exactInRange "-" _
  · rw [resolveInts rfl]
    exact exactInRange "*" _

end Analyzer

end Cqasm
