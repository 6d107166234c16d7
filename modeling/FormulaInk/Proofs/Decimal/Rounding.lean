import Mathlib

/-! Rounding to 32 bits. A number with a small exponent is rounded to one with an exponent up to a
given one exactly if it lies below the middle between the largest such number and the next power of
two. -/

namespace FormulaInk.Decimal

open Float.Model Float.Model.UnpackedFloat Float.Model.UnpackedFloat.ExtendedMantissa

/-- The exponent of the last bit that rounding keeps. -/
def lastPlace (m : Nat) (e : Int) : Int := max e (max (m.log2 + 1 + e - 24) (-149))

section Shifts

variable (em : ExtendedMantissa) (m n : Nat) (e : Int) (acc : Accuracy)

theorem shiftRight_succ : em >>> (n + 1) = (em >>> n).shiftRightOne := rfl

theorem mantissa_shiftRight : (em >>> n).mantissa = em.mantissa / 2 ^ n := by
  induction n with
  | zero => exact (Nat.div_one _).symm
  | succ n ih =>
    rw [shiftRight_succ, shiftRightOne, ih, Nat.pow_succ, Nat.div_div_eq_div_mul]

theorem roundBit_shiftRight :
    (em >>> (n + 1)).roundBit = (em.mantissa / 2 ^ n % 2 != 0) := by
  rw [shiftRight_succ, shiftRightOne, mantissa_shiftRight]

theorem mantissa_ofMantissaAndAccuracy : (ofMantissaAndAccuracy m acc).mantissa = m := by
  unfold ofMantissaAndAccuracy
  split <;> rfl

theorem roundedMantissa_of_low (h : em.roundBit = false) : em.roundedMantissa = em.mantissa := by
  obtain ⟨m, round, sticky⟩ := em
  obtain rfl : round = false := h
  cases sticky <;> rfl

theorem roundedMantissa_of_odd (h : em.roundBit = true) (odd : em.mantissa % 2 = 1) :
    em.roundedMantissa = em.mantissa + 1 := by
  obtain ⟨m, round, sticky⟩ := em
  obtain rfl : round = true := h
  cases sticky <;> simp_all [roundedMantissa, accuracy, Accuracy.roundToNearestEven]

theorem le_roundedMantissa :
    em.mantissa ≤ em.roundedMantissa ∧ em.roundedMantissa ≤ em.mantissa + 1 := by
  obtain ⟨m, round, sticky⟩ := em
  cases round <;> cases sticky <;>
    simp only [roundedMantissa, accuracy, Accuracy.roundToNearestEven] <;> omega

theorem shiftToTargetExponent_eq :
    shiftToTargetExponent Format.binary32 m e acc =
      (ofMantissaAndAccuracy m acc >>> (lastPlace m e - e).toNat, lastPlace m e) := by
  have unfolded : shiftToTargetExponent Format.binary32 m e acc =
      (ofMantissaAndAccuracy m acc >>> (max (m.log2 + 1 + e - 24) (-149) - e).toNat,
        e + ((max (m.log2 + 1 + e - 24) (-149) - e).toNat : Int)) := rfl
  have amount : (max (m.log2 + 1 + e - 24) (-149) - e).toNat = (lastPlace m e - e).toNat := by
    unfold lastPlace
    omega
  have reached : e + ((lastPlace m e - e).toNat : Int) = lastPlace m e := by
    unfold lastPlace
    omega
  rw [unfolded, amount, reached]

end Shifts

/-- The bits of a mantissa that rounding keeps. -/
def keptBits (m : Nat) (e : Int) : Nat := m / 2 ^ (lastPlace m e - e).toNat

/-- What rounding makes of the bits that it keeps. -/
def roundedBits (m : Nat) (e : Int) (acc : Accuracy) : Nat :=
  (ofMantissaAndAccuracy m acc >>> (lastPlace m e - e).toNat).roundedMantissa

section Bits

variable {m less : Nat} {e : Int} {acc : Accuracy}

theorem mantissa_shift (m : Nat) (e : Int) (acc : Accuracy) :
    (ofMantissaAndAccuracy m acc >>> (lastPlace m e - e).toNat).mantissa = keptBits m e := by
  rw [mantissa_shiftRight, mantissa_ofMantissaAndAccuracy, keptBits]

theorem keptBits_lt (m : Nat) (e : Int) : keptBits m e < 2 ^ 24 := by
  have below : m < 2 ^ (m.log2 + 1) := Nat.lt_log2_self
  have room : m.log2 + 1 ≤ 24 + (lastPlace m e - e).toNat := by
    unfold lastPlace
    omega
  rw [keptBits, Nat.div_lt_iff_lt_mul (Nat.two_pow_pos _), ← Nat.pow_add]
  exact Nat.lt_of_lt_of_le below (Nat.pow_le_pow_right (by decide) room)

/-- A mantissa of 24 bits or more, none of them below the least exponent, keeps its highest 24
bits. -/
theorem le_keptBits (log : 24 ≤ m.log2) (place : lastPlace m e = m.log2 - 23 + e) :
    2 ^ 23 ≤ keptBits m e := by
  have places : (lastPlace m e - e).toNat = m.log2 - 23 := by omega
  have pos : m ≠ 0 := by
    rintro rfl
    simp at log
  rw [keptBits, places, Nat.le_div_iff_mul_le (Nat.two_pow_pos _), ← Nat.pow_add]
  have bits : 23 + (m.log2 - 23) = m.log2 := by omega
  rw [bits]
  exact Nat.log2_self_le pos

theorem keptBits_of_places (places : (lastPlace m e - e).toNat = less + 1) :
    keptBits m e = m / 2 ^ less / 2 := by
  rw [keptBits, places, Nat.pow_succ, Nat.div_div_eq_div_mul]

theorem keptBits_le_roundedBits (m : Nat) (e : Int) (acc : Accuracy) :
    keptBits m e ≤ roundedBits m e acc ∧ roundedBits m e acc ≤ keptBits m e + 1 := by
  rw [← mantissa_shift m e acc, roundedBits]
  exact le_roundedMantissa _

/-- Where bits are shifted out, the highest of them must be set for the others to be rounded up. -/
theorem roundedBits_of_low (places : (lastPlace m e - e).toNat = less + 1)
    (low : m / 2 ^ less % 2 = 0) : roundedBits m e acc = keptBits m e := by
  rw [← mantissa_shift m e acc, roundedBits, roundedMantissa_of_low]
  rw [places, roundBit_shiftRight, mantissa_ofMantissaAndAccuracy, low]
  rfl

theorem roundedBits_of_odd (places : (lastPlace m e - e).toNat = less + 1)
    (high : m / 2 ^ less % 2 = 1) (odd : keptBits m e % 2 = 1) :
    roundedBits m e acc = keptBits m e + 1 := by
  rw [← mantissa_shift m e acc, roundedBits, roundedMantissa_of_odd]
  · rw [places, roundBit_shiftRight, mantissa_ofMantissaAndAccuracy, high]
    rfl
  · rwa [mantissa_shift]

/-- Rounding carries into one more bit where the bits that are kept are all set, and the next one
is. -/
theorem roundedBits_eq_iff (places : (lastPlace m e - e).toNat = less + 1) :
    roundedBits m e acc = 2 ^ 24 ↔ m / 2 ^ less = 2 ^ 25 - 1 := by
  have room := keptBits_lt m e
  have near := keptBits_le_roundedBits m e acc
  have halved := keptBits_of_places places
  obtain low | high := Nat.mod_two_eq_zero_or_one (m / 2 ^ less)
  · have down : roundedBits m e acc = keptBits m e := roundedBits_of_low places low
    omega
  · have up (odd : keptBits m e % 2 = 1) : roundedBits m e acc = keptBits m e + 1 :=
      roundedBits_of_odd places high odd
    omega

theorem log2_roundedBits_le (m : Nat) (e : Int) (acc : Accuracy) :
    (roundedBits m e acc).log2 ≤ 24 := by
  have room := keptBits_lt m e
  have near := keptBits_le_roundedBits m e acc
  obtain zero | pos := Nat.eq_zero_or_pos (roundedBits m e acc)
  · simp [zero]
  · have small : roundedBits m e acc < 2 ^ 25 := by omega
    exact Nat.le_of_lt_succ ((Nat.log2_lt (Nat.ne_of_gt pos)).mpr small)

end Bits

/-- A number that is zero, or finite with an exponent up to `k`. -/
def Within (k : Int) : UnpackedFloat → Prop
  | .zero _ => True
  | .finite _ _ e _ => e ≤ k
  | _ => False

section Rounding

variable {m : Nat} {e k : Int} {acc : Accuracy} {s : Sign}

/-- The rounded bits are shifted once more, for the carry. -/
theorem within_roundWithAccuracy :
    Within k (roundWithAccuracy Format.binary32 s m e acc) ↔
      keptBits (roundedBits m e acc) (lastPlace m e) = 0 ∨
        lastPlace (roundedBits m e acc) (lastPlace m e) ≤ k := by
  have final := mantissa_shift (roundedBits m e acc) (lastPlace m e) .exact
  unfold roundWithAccuracy
  rw [shiftToTargetExponent_eq]
  simp only
  rw [← roundedBits, shiftToTargetExponent_eq]
  simp only [final]
  split
  · simp [Within, *]
  · simp [Within, *]

theorem within_round_of_lt (low : -149 ≤ k) (he : e < k)
    (small : m < (2 ^ 25 - 1) * 2 ^ (k - 1 - e).toNat) :
    Within k (roundWithAccuracy Format.binary32 s m e acc) := by
  have log : m.log2 < 25 + (k - 1 - e).toNat := by
    obtain rfl | pos := Nat.eq_zero_or_pos m
    · simp
    · rw [Nat.log2_lt (Nat.ne_of_gt pos), Nat.pow_add]
      exact Nat.lt_of_lt_of_le small (Nat.mul_le_mul_right _ (by decide))
  have first : lastPlace m e ≤ k := by
    unfold lastPlace
    omega
  have room := keptBits_lt m e
  have near := keptBits_le_roundedBits m e acc
  rw [within_roundWithAccuracy]
  refine .inr ?_
  by_cases carried : roundedBits m e acc = 2 ^ 24
  · -- the carry needs one more place, and there is one
    have place : lastPlace m e ≠ k := by
      intro last
      have places : (lastPlace m e - e).toNat = (k - 1 - e).toNat + 1 := by omega
      have full := (roundedBits_eq_iff places).mp carried
      have large := (Nat.le_div_iff_mul_le (Nat.two_pow_pos _)).mp full.ge
      omega
    have bits : (2 ^ 24 : Nat).log2 = 24 := by decide
    rw [carried]
    unfold lastPlace at first place ⊢
    rw [bits]
    omega
  · have fewer : (roundedBits m e acc).log2 < 24 := by
      obtain zero | pos := Nat.eq_zero_or_pos (roundedBits m e acc)
      · simp [zero]
      · exact (Nat.log2_lt (Nat.ne_of_gt pos)).mpr (by omega)
    generalize lastPlace m e = place at first ⊢
    unfold lastPlace
    omega

theorem not_within_round_of_le (low : -149 ≤ k) (he : e < k)
    (large : (2 ^ 25 - 1) * 2 ^ (k - 1 - e).toNat ≤ m) :
    ¬Within k (roundWithAccuracy Format.binary32 s m e acc) := by
  have power : 2 ^ (24 + (k - 1 - e).toNat) ≤ m := by
    rw [Nat.pow_add]
    exact Nat.le_trans (Nat.mul_le_mul_right _ (by decide)) large
  have pos : m ≠ 0 := by
    rintro rfl
    exact absurd (Nat.two_pow_pos (24 + (k - 1 - e).toNat)) (by omega)
  have log : 24 + (k - 1 - e).toNat ≤ m.log2 := (Nat.le_log2 pos).mpr power
  have first : lastPlace m e = m.log2 - 23 + e := by
    unfold lastPlace
    omega
  have half : 2 ^ 23 ≤ keptBits m e := le_keptBits (by omega) first
  have near := keptBits_le_roundedBits m e acc
  have carry := log2_roundedBits_le m e acc
  rw [within_roundWithAccuracy, not_or, not_le]
  constructor
  · -- the second shift takes one bit at most
    have places : (lastPlace (roundedBits m e acc) (lastPlace m e) - lastPlace m e).toNat ≤ 1 := by
      rw [lastPlace]
      omega
    rw [keptBits, Nat.div_eq_zero_iff_lt (Nat.two_pow_pos _), not_lt]
    calc 2 ^ (lastPlace (roundedBits m e acc) (lastPlace m e) - lastPlace m e).toNat
        ≤ 2 ^ 1 := Nat.pow_le_pow_right (by decide) places
      _ ≤ roundedBits m e acc := by omega
  · by_cases last : lastPlace m e = k
    · have places : (lastPlace m e - e).toNat = (k - 1 - e).toNat + 1 := by omega
      have carried : roundedBits m e acc = 2 ^ 24 := by
        refine (roundedBits_eq_iff places).mpr (Nat.le_antisymm ?_ ?_)
        · have room := keptBits_lt m e
          rw [keptBits_of_places places] at room
          omega
        · exact (Nat.le_div_iff_mul_le (Nat.two_pow_pos _)).mpr large
      have bits : (2 ^ 24 : Nat).log2 = 24 := by decide
      rw [carried, last, lastPlace, bits]
      omega
    · rw [lastPlace]
      omega

/-- A number is rounded to one with an exponent up to `k` exactly if it is below the middle between
the largest such number and the next power of two. -/
theorem within_round_iff (low : -149 ≤ k) (he : e < k) :
    Within k (roundWithAccuracy Format.binary32 s m e acc) ↔
      m < (2 ^ 25 - 1) * 2 ^ (k - 1 - e).toNat := by
  constructor
  · intro within
    by_contra large
    exact not_within_round_of_le low he (Nat.le_of_not_lt large) within
  · exact within_round_of_lt low he

end Rounding

end FormulaInk.Decimal
