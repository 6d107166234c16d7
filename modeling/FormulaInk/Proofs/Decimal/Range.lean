import FormulaInk.Decimal.Literal
import FormulaInk.Proofs.Decimal.Rounding

/-! The range of decimal literals. A literal is read to a finite number exactly if it lies below the
middle between the largest finite number and the next power of two. Short literals are read by one
operation on numbers that are exact, all others by rounding a quotient or a product. -/

namespace FormulaInk.Decimal

open Float.Model Float.Model.UnpackedFloat

/-- The middle between the largest finite number of 32 bits and the next power of two. -/
def finiteBound : Nat := 2 ^ 128 - 2 ^ 103

theorem finiteBound_eq : finiteBound = (2 ^ 25 - 1) * 2 ^ 103 := by decide

section Scientific

variable {n : Nat} {e : Int}

theorem mul_finite {s s' : Sign} {m m' : Nat} {e e' : Int} {h : 0 < m} {h' : 0 < m'} :
    UnpackedFloat.mul Format.binary32 (.finite s m e h) (.finite s' m' e' h') =
      roundWithAccuracy Format.binary32 (s * s') (m * m') (e + e') .exact :=
  rfl

/-- A quotient has an exponent that is not above the difference of the exponents. -/
theorem div_finite (s s' : Sign) {m m' : Nat} (e e' : Int) (h : 0 < m) (h' : 0 < m') :
    ∃ (less : Nat) (acc : Accuracy),
      UnpackedFloat.div Format.binary32 (.finite s m e h) (.finite s' m' e' h') =
        roundWithAccuracy Format.binary32 (s / s') (m * 2 ^ less / m') (e - e' - less) acc := by
  have quotient : UnpackedFloat.div Format.binary32 (.finite s m e h) (.finite s' m' e' h') =
      roundWithAccuracy Format.binary32 (s / s') (divCore Format.binary32 m e m' e').1
        (divCore Format.binary32 m e m' e').2.1 (divCore Format.binary32 m e m' e').2.2 := rfl
  set target := min (e - e')
    (Format.binary32.targetExponent (totalExponent m e - totalExponent m' e'))
  have mantissa : (divCore Format.binary32 m e m' e').1 =
      m * 2 ^ (e - e' - target).toNat / m' := by
    rw [← Nat.shiftLeft_eq]
    rfl
  have exponent : (divCore Format.binary32 m e m' e').2.1 =
      e - e' - ((e - e' - target).toNat : Int) := by
    have : target ≤ e - e' := min_le_left _ _
    show target = _
    omega
  exact ⟨(e - e' - target).toNat, (divCore Format.binary32 m e m' e').2.2, by
    rw [quotient, mantissa, exponent]⟩

/-- The conversion does not compute powers of ten that lead out of the range for certain. -/
theorem ofScientific_eq (pos : 0 < n) :
    UnpackedFloat.ofScientific Format.binary32 n e =
      if 256 < e then .infinity .positive
      else if e < -(256 + (n.log2 : Int)) then .zero .positive
      else if 0 ≤ e then
        UnpackedFloat.mul Format.binary32
          (.finite .positive (n <<< 24) (-24) (by simpa [Nat.pos_iff_ne_zero] using pos.ne'))
          (.finite .positive (10 ^ e.toNat) 0 (Nat.pow_pos (by decide)))
      else
        UnpackedFloat.div Format.binary32 (.finite .positive n 0 pos)
          (.finite .positive (10 ^ (-e).toNat) 0 (Nat.pow_pos (by decide))) := by
  rw [UnpackedFloat.ofScientific, dif_neg pos.ne']
  rfl

theorem within_ofScientific_of_nonneg (he : 0 ≤ e) (range : e ≤ 256) (pos : 0 < n) :
    Within 104 (UnpackedFloat.ofScientific Format.binary32 n e) ↔
      n * 10 ^ e.toNat < finiteBound := by
  have room : (104 - 1 - ((-24 : Int) + 0)).toNat = 103 + 24 := rfl
  rw [ofScientific_eq pos, if_neg (by omega), if_neg (by omega), if_pos he, mul_finite,
    within_round_iff (by decide) (by decide), Nat.shiftLeft_eq, Nat.mul_right_comm, room,
    finiteBound_eq, Nat.pow_add, ← Nat.mul_assoc]
  exact Nat.mul_lt_mul_right (Nat.two_pow_pos 24)

theorem within_ofScientific_of_neg (he : e < 0) (range : -(256 + (n.log2 : Int)) ≤ e)
    (pos : 0 < n) :
    Within 104 (UnpackedFloat.ofScientific Format.binary32 n e) ↔
      n < finiteBound * 10 ^ (-e).toNat := by
  have ten : 0 < 10 ^ (-e).toNat := Nat.pow_pos (by decide)
  rw [ofScientific_eq pos, if_neg (by omega), if_neg (by omega), if_neg (by omega)]
  obtain ⟨less, acc, quotient⟩ := div_finite .positive .positive 0 0 pos ten
  have room : (104 - 1 - ((0 : Int) - 0 - less)).toNat = 103 + less := by omega
  rw [quotient, within_round_iff (by decide) (by omega), room, Nat.pow_add, ← Nat.mul_assoc,
    ← finiteBound_eq, Nat.div_lt_iff_lt_mul ten, Nat.mul_right_comm]
  exact Nat.mul_lt_mul_right (Nat.two_pow_pos less)

/-- A number is in the range exactly if it is below the bound. -/
theorem within_ofScientific (n : Nat) (e : Int) :
    Within 104 (UnpackedFloat.ofScientific Format.binary32 n e) ↔
      (n : ℚ) * 10 ^ e < finiteBound := by
  obtain rfl | pos := Nat.eq_zero_or_pos n
  · have zero : UnpackedFloat.ofScientific Format.binary32 0 e = .zero .positive := by
      rw [UnpackedFloat.ofScientific, dif_pos rfl]
    rw [zero]
    exact iff_of_true trivial (by simp [finiteBound])
  obtain nonneg | neg := le_or_gt 0 e
  · lift e to Nat using nonneg
    rw [zpow_natCast]
    norm_cast
    by_cases range : (e : Int) ≤ 256
    · rw [within_ofScientific_of_nonneg (Int.natCast_nonneg e) range pos, Int.toNat_natCast]
    · have large : finiteBound ≤ n * 10 ^ e := by
        calc finiteBound ≤ 10 ^ 256 := by decide
          _ ≤ 10 ^ e := Nat.pow_le_pow_right (by decide) (by omega)
          _ ≤ n * 10 ^ e := Nat.le_mul_of_pos_left _ pos
      rw [ofScientific_eq pos, if_pos (by omega)]
      exact iff_of_false id (not_lt.mpr large)
  · obtain ⟨k, rfl⟩ : ∃ k : Nat, e = -k := ⟨(-e).toNat, by omega⟩
    rw [zpow_neg, zpow_natCast, ← div_eq_mul_inv, div_lt_iff₀ (by positivity)]
    norm_cast
    by_cases range : -(256 + (n.log2 : Int)) ≤ -(k : Int)
    · rw [within_ofScientific_of_neg neg range pos, neg_neg, Int.toNat_natCast]
    · have small : n < finiteBound * 10 ^ k := by
        calc n < 2 ^ (n.log2 + 1) := Nat.lt_log2_self
          _ ≤ 2 ^ k := Nat.pow_le_pow_right (by decide) (by omega)
          _ ≤ 10 ^ k := Nat.pow_le_pow_left (by decide) k
          _ ≤ finiteBound * 10 ^ k := Nat.le_mul_of_pos_left _ (by decide)
      rw [ofScientific_eq pos, if_neg (by omega), if_pos (not_le.mp range)]
      exact iff_of_true trivial small

end Scientific

section Packing

variable {k : Int} {u : UnpackedFloat}

/-- The exponent of a number as it is stored. -/
def exponentField (b : BitVec Format.binary32.numBits) : Nat := (unpackExponent b).toNat

theorem within_unpack_iff (low : -149 ≤ k) (high : k ≤ 104) (b : BitVec Format.binary32.numBits) :
    Within k (UnpackedFloat.unpack Format.binary32 b) ↔ (exponentField b : Int) ≤ k + 150 := by
  have exponent (h : unpackExponent b = 0#_) : exponentField b = 0 := by
    rw [exponentField, h]
    rfl
  unfold UnpackedFloat.unpack
  simp only
  split
  · rename_i top
    have full : exponentField b = 255 := by
      rw [exponentField, top]
      rfl
    have beyond : ¬(exponentField b : Int) ≤ k + 150 := by omega
    split <;> simp [Within, beyond]
  · split
    · rename_i zero
      have none : (exponentField b : Int) ≤ k + 150 := by rw [exponent zero]; omega
      have least : (exponentField b : Int) - (Format.binary32.exponentBias + 23) + 1 ≤ k := by
        rw [exponent zero]
        show (0 : Int) - (127 + 23) + 1 ≤ k
        omega
      split
      · simp [Within, none]
      · exact iff_of_true least none
    · show (exponentField b : Int) - (127 + 23) ≤ k ↔ _
      omega

theorem exponentField_packComponents (s : Sign) (exponent : BitVec Format.binary32.exponentBits)
    (mantissa : BitVec Format.binary32.mantissaBitsWithoutImplicit) :
    exponentField (packComponents Format.binary32 s exponent mantissa) = exponent.toNat := by
  rw [exponentField, unpackExponent_packComponents]

theorem exponentField_packedInfinity (s : Sign) :
    exponentField (packedInfinity Format.binary32 s) = 255 := by
  rw [packedInfinity, exponentField_packComponents]
  rfl

/-- Exponents up to 104 are stored, and a number with a larger one becomes an infinity. -/
theorem exponentField_pack_finite {s : Sign} {m : Nat} {e : Int} (pos : 0 < m) :
    let packed := UnpackedFloat.pack Format.binary32 (.finite s m e pos)
    (104 < e → exponentField packed = 255) ∧
      (e ≤ 104 → exponentField packed ≤ (e + 150).toNat) := by
  have biased : (e + Format.binary32.exponentBias +
      Format.binary32.mantissaBitsWithoutImplicit).toNat = (e + 150).toNat := by
    show (e + 127 + 23).toNat = _
    omega
  unfold UnpackedFloat.pack
  simp only [biased]
  constructor
  · intro large
    rw [if_pos (by show 256 ≤ _; omega), exponentField_packedInfinity]
  · intro small
    rw [if_neg (by show ¬256 ≤ _; omega)]
    split
    · rw [exponentField_packComponents]
      exact Nat.mod_le _ _
    · rw [exponentField_packComponents]
      exact Nat.zero_le _

theorem exponentField_pack (low : -149 ≤ k) (high : k ≤ 104) (h : Within k u) :
    (exponentField (UnpackedFloat.pack Format.binary32 u) : Int) ≤ k + 150 := by
  cases u with
  | zero s =>
    rw [UnpackedFloat.pack, packedZero, exponentField_packComponents]
    show (0 : Int) ≤ _
    omega
  | finite s m e pos =>
    have le : e ≤ k := h
    have stored := (exponentField_pack_finite (s := s) pos).2 (le.trans high)
    omega
  | _ => exact h.elim

theorem exponentField_pack_of_not_within (h : ¬Within 104 u) :
    exponentField (UnpackedFloat.pack Format.binary32 u) = 255 := by
  cases u with
  | zero s => exact absurd trivial h
  | finite s m e pos => exact (exponentField_pack_finite pos).1 (not_le.mp h)
  | infinity s => exact exponentField_packedInfinity s
  | notANumber =>
    rw [UnpackedFloat.pack, packedNaN, exponentField_packComponents]
    rfl

end Packing

section Numbers

variable {x : Float32} {k : Int}

/-- The exponent of a finite number is at most 104. -/
theorem isFinite_iff : isFinite x = true ↔ Within 104 x.toModel.unpack := by
  have stored : exponentField x.toBits.toBitVec = x.toBits.toNat >>> 23 % 256 := by
    simp [exponentField, unpackExponent]
  have finite : isFinite x = true ↔ x.toBits.toNat >>> 23 % 256 ≠ 255 := by
    unfold isFinite Binary.ofFloat32 Binary.ofFields
    dsimp only
    split
    · rename_i top
      split <;> simp [Binary.isFinite, top]
    · rename_i top
      split <;> simp [Binary.isFinite, top]
  rw [Float32.Model.unpack, within_unpack_iff (by decide) (by decide), finite, ← stored]
  have small : exponentField x.toBits.toBitVec < 256 := (unpackExponent _).isLt
  change exponentField x.toBits.toBitVec ≠ 255 ↔ (exponentField x.toBits.toBitVec : Int) ≤ 104 + 150
  omega

theorem within_unpack_pack {u : UnpackedFloat} (low : -149 ≤ k) (high : k ≤ 104) (h : Within k u) :
    Within k (Float32.Model.pack u).unpack :=
  (within_unpack_iff low high _).mpr (exponentField_pack low high h)

theorem isFinite_pack {u : UnpackedFloat} :
    isFinite (.ofModel (.pack u)) = true ↔ Within 104 u := by
  rw [isFinite_iff]
  refine ⟨fun within => ?_, within_unpack_pack (by decide) (by decide)⟩
  by_contra outside
  have stored := (within_unpack_iff (by decide) (by decide) _).mp within
  have full := exponentField_pack_of_not_within outside
  change (exponentField (UnpackedFloat.pack Format.binary32 u) : Int) ≤ 104 + 150 at stored
  omega

theorem isFinite_neg : isFinite (-x) = true ↔ isFinite x = true := by
  have negated : -x = .ofModel (.pack x.toModel.unpack.neg) := rfl
  rw [negated, isFinite_pack, isFinite_iff]
  cases x.toModel.unpack <;> rfl

/-- A mantissa that is stored has 24 bits. -/
theorem mantissa_unpack_lt {b : BitVec Format.binary32.numBits} {s : Sign} {m : Nat} {e : Int}
    {pos : 0 < m} (h : UnpackedFloat.unpack Format.binary32 b = .finite s m e pos) :
    m < 2 ^ 24 := by
  unfold UnpackedFloat.unpack at h
  dsimp only at h
  split at h
  · split at h <;> cases h
  · split at h
    · split at h
      · cases h
      · obtain ⟨-, rfl, -⟩ := UnpackedFloat.finite.inj h
        exact Nat.lt_trans (unpackMantissa b).isLt (by decide)
    · obtain ⟨-, rfl, -⟩ := UnpackedFloat.finite.inj h
      exact (1#1 ++ unpackMantissa b).isLt

/-- A number with a mantissa of 24 bits, zero or with an exponent up to one. -/
def Small : UnpackedFloat → Prop
  | .zero _ => True
  | .finite _ m e _ => m < 2 ^ 24 ∧ e ≤ 1
  | _ => False

/-- A number with a mantissa of 24 bits and an exponent as powers of ten up to the tenth have. -/
def Moderate : UnpackedFloat → Prop
  | .finite _ m e _ => m < 2 ^ 24 ∧ -23 ≤ e ∧ e ≤ 10
  | _ => False

instance : DecidablePred Moderate
  | .finite _ m e _ => inferInstanceAs (Decidable (m < 2 ^ 24 ∧ -23 ≤ e ∧ e ≤ 10))
  | .zero _ | .infinity _ | .notANumber => inferInstanceAs (Decidable False)

theorem moderate_powerOfTen : ∀ k : Fin 11,
    Moderate Float32.exactlyRepresentablePowersOfTen[k].toModel.unpack := by
  decide +kernel

theorem exists_round (s : Sign) (m : Nat) (e : Int) : ∃ more : Nat,
    UnpackedFloat.round Format.binary32 s m e =
      roundWithAccuracy Format.binary32 s (m * 2 ^ more) (e - more) .exact := by
  refine ⟨(e - Format.binary32.targetExponent (totalExponent m e)).toNat, ?_⟩
  rw [← Nat.shiftLeft_eq]
  rfl

theorem within_ofNat {n : Nat} (h : n < 2 ^ 23) :
    Within 1 (UnpackedFloat.ofNat Format.binary32 n) := by
  rw [UnpackedFloat.ofNat, UnpackedFloat.ofInt, UnpackedFloat.normalize]
  obtain rfl | pos := Nat.eq_zero_or_pos n
  · trivial
  · have positive : compare (n : Int) 0 = .gt := compare_gt_iff_gt.mpr (by omega)
    rw [positive]
    obtain ⟨more, rounds⟩ := exists_round .positive (n : Int).toNat 0
    have room : (1 - 1 - ((0 : Int) - more)).toNat = more := by omega
    simp only [rounds]
    refine within_round_of_lt (by decide) (by omega) ?_
    rw [room, Int.toNat_natCast]
    exact Nat.mul_lt_mul_of_pos_right (by omega) (Nat.two_pow_pos more)

theorem small_ofNat {n : Nat} (h : n < 2 ^ 23) : Small n.toUInt64.toFloat32.toModel.unpack := by
  have same : n.toUInt64.toNat = n := Nat.mod_eq_of_lt (by omega)
  have packed : n.toUInt64.toFloat32.toModel =
      .pack (UnpackedFloat.ofNat Format.binary32 n.toUInt64.toNat) := rfl
  rw [packed, same]
  have within := within_unpack_pack (by decide) (by decide) (within_ofNat h)
  cases unpacked : (Float32.Model.pack (UnpackedFloat.ofNat Format.binary32 n)).unpack with
  | zero s => trivial
  | finite s m e pos =>
    rw [unpacked] at within
    exact ⟨mantissa_unpack_lt unpacked, within⟩
  | _ =>
    rw [unpacked] at within
    exact within.elim

theorem within_mul {u v : UnpackedFloat} (hu : Small u) (hv : Moderate v) :
    Within 104 (UnpackedFloat.mul Format.binary32 u v) := by
  cases v with
  | finite s' m' e' pos' =>
    obtain ⟨hm', -, he'⟩ := hv
    cases u with
    | zero s => trivial
    | finite s m e pos =>
      obtain ⟨hm, he⟩ := hu
      rw [mul_finite]
      refine within_round_of_lt (by decide) (by omega) ?_
      calc m * m' < 2 ^ 24 * 2 ^ 24 := Nat.mul_lt_mul_of_lt_of_lt hm hm'
        _ ≤ (2 ^ 25 - 1) * 2 ^ 24 := Nat.mul_le_mul_right _ (by decide)
        _ ≤ (2 ^ 25 - 1) * 2 ^ (104 - 1 - (e + e')).toNat :=
          Nat.mul_le_mul_left _ (Nat.pow_le_pow_right (by decide) (by omega))
    | _ => exact hu.elim
  | _ => exact hv.elim

theorem within_div {u v : UnpackedFloat} (hu : Small u) (hv : Moderate v) :
    Within 104 (UnpackedFloat.div Format.binary32 u v) := by
  cases v with
  | finite s' m' e' pos' =>
    obtain ⟨-, he', -⟩ := hv
    cases u with
    | zero s => trivial
    | finite s m e pos =>
      obtain ⟨hm, he⟩ := hu
      obtain ⟨less, acc, quotient⟩ := div_finite s s' e e' pos pos'
      rw [quotient]
      refine within_round_of_lt (by decide) (by omega) ?_
      calc m * 2 ^ less / m' ≤ m * 2 ^ less := Nat.div_le_self _ _
        _ < (2 ^ 25 - 1) * 2 ^ less := Nat.mul_lt_mul_of_pos_right (by omega) (Nat.two_pow_pos _)
        _ ≤ (2 ^ 25 - 1) * 2 ^ (104 - 1 - (e - e' - less)).toNat :=
          Nat.mul_le_mul_left _ (Nat.pow_le_pow_right (by decide) (by omega))
    | _ => exact hu.elim
  | _ => exact hv.elim

/-- The conversion of decimal numbers gives a finite number exactly below the bound. -/
theorem isFinite_ofScientific (n k : Nat) (down : Bool) :
    isFinite (Float32.ofScientific n down k) = true ↔
      (n : ℚ) * 10 ^ (if down then -(k : Int) else k) < finiteBound := by
  unfold Float32.ofScientific
  split
  · rename_i small
    have hn := small_ofNat small.1
    have hk := moderate_powerOfTen ⟨k, by omega⟩
    have below : (n : ℚ) * 10 ^ (if down then -(k : Int) else k) < finiteBound := by
      have exponent : (if down then -(k : Int) else k) ≤ 10 := by
        split <;> omega
      have digits : (n : ℚ) ≤ 2 ^ 23 := by exact_mod_cast small.1.le
      calc (n : ℚ) * 10 ^ (if down then -(k : Int) else k) ≤ 2 ^ 23 * 10 ^ (10 : Int) := by
            gcongr
            norm_num
        _ < finiteBound := by norm_num [finiteBound]
    refine iff_of_true ?_ below
    dsimp only
    split
    · exact isFinite_pack.mpr (within_div hn hk)
    · exact isFinite_pack.mpr (within_mul hn hk)
  · dsimp only
    have exponent : (if down = true then Int.negOfNat k else Int.ofNat k) =
        if down then -(k : Int) else k := by
      cases down
      · rfl
      · exact Int.negOfNat_eq
    rw [exponent, Float32.Model.ofScientific, isFinite_pack, within_ofScientific]

end Numbers

section Literals

variable {n : Nat} {e : Int}

theorem lt_of_places (n : Nat) (e : Int) :
    (n : ℚ) * 10 ^ e < 10 ^ (e + (Nat.toDigits 10 n).length) := by
  have digits : n < 10 ^ (Nat.toDigits 10 n).length :=
    (Nat.length_toDigits_le_iff (by decide) Nat.length_toDigits_pos).mp le_rfl
  rw [add_comm, zpow_add₀ (by norm_num), zpow_natCast]
  gcongr
  exact_mod_cast digits

theorem le_of_places (pos : 0 < n) (e : Int) :
    (10 : ℚ) ^ (e + (Nat.toDigits 10 n).length - 1) ≤ n * 10 ^ e := by
  have digits : 10 ^ ((Nat.toDigits 10 n).length - 1) ≤ n := by
    by_contra more
    obtain one | two : (Nat.toDigits 10 n).length - 1 = 0 ∨ 0 < (Nat.toDigits 10 n).length - 1 :=
      Nat.eq_zero_or_pos _
    · rw [one] at more
      omega
    · have fewer := (Nat.length_toDigits_le_iff (by decide) two).mpr (not_le.mp more)
      omega
  have places : e + (Nat.toDigits 10 n).length - 1 =
      ((Nat.toDigits 10 n).length - 1 : Nat) + e := by
    have := Nat.length_toDigits_pos (b := 10) (n := n)
    omega
  rw [places, zpow_add₀ (by norm_num), zpow_natCast]
  gcongr
  exact_mod_cast digits

/-- A literal is read to a finite number exactly if it is below the bound. -/
theorem isFinite_toFloat32 (negative : Bool) (n : Nat) (e : Int) :
    isFinite (Literal.finite negative n e).toFloat32 = true ↔ (n : ℚ) * 10 ^ e < finiteBound := by
  have zero : isFinite (Float32.ofNat 0) = true :=
    (isFinite_ofScientific 0 0 false).mpr (by norm_num [finiteBound])
  have scientific : isFinite (Float32.ofScientific n (e < 0) e.natAbs) = true ↔
      (n : ℚ) * 10 ^ e < finiteBound := by
    have exponent : (if decide (e < 0) = true then -(e.natAbs : Int) else e.natAbs) = e := by
      by_cases below : e < 0
      · rw [if_pos (decide_eq_true below)]
        omega
      · rw [if_neg (by simpa using below)]
        omega
    rw [isFinite_ofScientific, exponent]
  have size : ∀ x : Float32, (isFinite x = true ↔ (n : ℚ) * 10 ^ e < finiteBound) →
      (isFinite (if negative then -x else x) = true ↔ (n : ℚ) * 10 ^ e < finiteBound) := by
    intro x known
    split
    · rw [isFinite_neg, known]
    · exact known
  unfold Literal.toFloat32
  refine size _ ?_
  split
  · rename_i small
    refine iff_of_true zero ?_
    obtain rfl | small : n = 0 ∨ e + (Nat.toDigits 10 n).length < -100 := by simpa using small
    · norm_num [finiteBound]
    · calc (n : ℚ) * 10 ^ e < 10 ^ (e + (Nat.toDigits 10 n).length) := lt_of_places n e
        _ ≤ 1 := zpow_le_one_of_nonpos₀ (by norm_num) (by omega)
        _ ≤ finiteBound := by norm_num [finiteBound]
  · rename_i present
    split
    · rename_i large
      refine iff_of_false (by decide) (not_lt.mpr ?_)
      have pos : 0 < n := by
        rw [Nat.pos_iff_ne_zero]
        rintro rfl
        simp at present
      calc (finiteBound : ℚ) ≤ 10 ^ (100 : Int) := by norm_num [finiteBound]
        _ ≤ 10 ^ (e + (Nat.toDigits 10 n).length - 1) := by
          gcongr
          · norm_num
          · omega
        _ ≤ n * 10 ^ e := le_of_places pos e
    · exact scientific

end Literals

end FormulaInk.Decimal
