/-! Integers of 64 bits: conversions and the operations whose exact result may leave the range. -/
namespace Cqasm.Number

def int64? (n : Int) : Option Int64 :=
  if Int64.minValue.toInt ≤ n ∧ n ≤ Int64.maxValue.toInt then some (.ofInt n) else none

/-- The 64-bit integer that a length is kept as. Past the largest one it comes out negative. -/
def ofLength (n : Nat) : Int := (Int64.ofNat n).toInt

def mulWrapping (m n : Int) : Int := (Int64.ofInt (m * n)).toInt

def floatOfInt (i : Int64) : Float := Float.ofInt i.toInt

def intOfBool (b : Bool) : Int64 := if b then 1 else 0

def floatOfBool (b : Bool) : Float := if b then 1.0 else 0.0

theorem toIntOfInt64 {n : Int} {i : Int64} (h : int64? n = some i) : i.toInt = n := by
  unfold int64? at h
  split at h
  · rename_i range
    cases h
    exact Int64.toInt_ofInt_of_le range.1 (Int.lt_of_le_of_lt range.2 (by decide))
  · contradiction

theorem int64SomeIff {n : Int} {i : Int64} : int64? n = some i ↔ i.toInt = n := by
  constructor
  · exact toIntOfInt64
  · rintro rfl
    have range : Int64.minValue.toInt ≤ i.toInt ∧ i.toInt ≤ Int64.maxValue.toInt :=
      ⟨i.le_toInt, Int.le_sub_one_of_lt i.toInt_lt⟩
    rw [int64?, if_pos range, Int64.ofInt_toInt]

theorem int64NoneIff {n : Int} :
    int64? n = none ↔ n < Int64.minValue.toInt ∨ Int64.maxValue.toInt < n := by
  unfold int64?
  split <;> rename_i range
  · simp only [reduceCtorEq, false_iff, not_or, Int.not_lt]
    exact range
  · simp only [true_iff]
    omega

theorem floatOfIntOfBool (b : Bool) : floatOfInt (intOfBool b) = floatOfBool b := by
  cases b <;> decide +kernel

end Cqasm.Number
