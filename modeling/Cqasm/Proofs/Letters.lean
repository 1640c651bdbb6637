/-! The case of letters by their code points. Only the letters of English have one. -/
namespace Cqasm.Letter

theorem upperIff (c : Char) : c.isUpper = true ↔ 65 ≤ c.toNat ∧ c.toNat ≤ 90 := decide_eq_true_iff

theorem alphaIff (c : Char) : c.isAlpha = true ↔ 65 ≤ c.toNat ∧ c.toNat ≤ 90 ∨ 97 ≤ c.toNat ∧ c.toNat ≤ 122 := by
  have lower : c.isLower = true ↔ 97 ≤ c.toNat ∧ c.toNat ≤ 122 :=
    Bool.and_eq_true_iff.trans (and_congr decide_eq_true_iff decide_eq_true_iff)
  exact Bool.or_eq_true_iff.trans (or_congr (upperIff c) lower)

theorem lowerCode (c : Char) :
    c.toLower.toNat = if 65 ≤ c.toNat ∧ c.toNat ≤ 90 then c.toNat + 32 else c.toNat := by
  unfold Char.toLower
  split
  case isTrue range =>
    have codes : 65 ≤ c.toNat ∧ c.toNat ≤ 90 := range
    rw [if_pos codes]
    change (c.val + 32).toNat = c.toNat + 32
    rw [UInt32.toNat_add]
    change (c.toNat + 32) % 4294967296 = c.toNat + 32
    omega
  case isFalse range => exact (if_neg range).symm

theorem upperCode (c : Char) :
    c.toUpper.toNat = if 97 ≤ c.toNat ∧ c.toNat ≤ 122 then c.toNat - 32 else c.toNat := by
  unfold Char.toUpper
  split
  case isTrue range =>
    have codes : 97 ≤ c.toNat ∧ c.toNat ≤ 122 := range
    rw [if_pos codes]
    change (c.val + 4294967264).toNat = c.toNat - 32
    rw [UInt32.toNat_add]
    change (c.toNat + 4294967264) % 4294967296 = c.toNat - 32
    omega
  case isFalse range => exact (if_neg range).symm

theorem lowerLower (c : Char) : c.toLower.toLower = c.toLower := by
  rw [← Char.toNat_inj, lowerCode, lowerCode]
  grind

theorem lowerUpper (c : Char) : c.toUpper.toLower = c.toLower := by
  rw [← Char.toNat_inj, lowerCode, lowerCode, upperCode]
  grind

theorem lowerUnchanged {c : Char} (other : c.isUpper = false) : c.toLower = c := by
  have outside := mt (upperIff c).mpr (Bool.eq_false_iff.mp other)
  rw [← Char.toNat_inj, lowerCode, if_neg outside]

theorem lowerAlpha (c : Char) : c.toLower.isAlpha = c.isAlpha := by
  rw [Bool.eq_iff_iff, alphaIff, alphaIff, lowerCode]
  grind

end Cqasm.Letter
