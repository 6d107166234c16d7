import FormulaInk.Image.Bitmap

/-! Pixels of a bitmap. The index of a pixel's bytes is a word of 32 bits. So a pixel whose bytes
begin before byte `2 ^ 32` is read from them, and behind it there is no such word: a build that
checks its numbers panics there, and one that does not reads the bytes of another pixel. -/

namespace FormulaInk

namespace Bitmap

/-- Whether there are four bytes for each pixel. -/
def Complete (b : Bitmap) : Prop := b.data.size = 4 * b.width.toNat * b.height.toNat

/-- The number of bytes before those of a pixel, without a limit. -/
def place (b : Bitmap) (x y : UInt32) : Nat := 4 * (y.toNat * b.width.toNat + x.toNat)

section Positions

variable {a : Arithmetic} {b : Bitmap} {x y : UInt32}

/-- The steps to the index only grow. -/
theorem index_eq_fit (b : Bitmap) (a : Arithmetic) (x y : UInt32) :
    b.index a x y = a.fit UInt32.size (b.place x y) := by
  rw [index, ← bind_assoc, Arithmetic.fit_add, Arithmetic.fit_mul a _ _ (by decide), place,
    Nat.mul_comm 4]

theorem pixel?_of_outside (h : ¬(x < b.width ∧ y < b.height)) : b.pixel? a x y = .ok none := by
  have outside : b.width ≤ x ∨ b.height ≤ y := by
    rw [UInt32.lt_iff_toNat_lt, UInt32.lt_iff_toNat_lt] at h
    rw [UInt32.le_iff_toNat_le, UInt32.le_iff_toNat_le]
    omega
  rw [pixel?, if_pos outside]

theorem pixel?_of_inside (hx : x < b.width) (hy : y < b.height) :
    b.pixel? a x y = (a.fit UInt32.size (b.place x y)).map b.stored? := by
  have inside : ¬(b.width ≤ x ∨ b.height ≤ y) :=
    not_or.mpr ⟨UInt32.not_le.mpr hx, UInt32.not_le.mpr hy⟩
  rw [pixel?, if_neg inside, index_eq_fit]

/-- The bytes of a pixel inside are there. -/
theorem place_add_le (complete : b.Complete) (hx : x < b.width) (hy : y < b.height) :
    b.place x y + 4 ≤ b.data.size := by
  have column : x.toNat + 1 ≤ b.width.toNat := UInt32.lt_iff_toNat_lt.mp hx
  have row : y.toNat + 1 ≤ b.height.toNat := UInt32.lt_iff_toNat_lt.mp hy
  have rows : b.width.toNat * (y.toNat + 1) ≤ b.width.toNat * b.height.toNat :=
    Nat.mul_le_mul_left _ row
  rw [complete, place, Nat.mul_assoc, Nat.mul_comm y.toNat]
  rw [Nat.mul_add, Nat.mul_one] at rows
  omega

theorem exists_stored? {i : Nat} (h : i + 4 ≤ b.data.size) : ∃ p, b.stored? i = some p := by
  have byte {k : Nat} (hk : k < i + 4) : b.data[k]? = some b.data[k] :=
    getElem?_pos b.data k (by omega)
  simp [stored?, byte (k := i), byte (k := i + 1), byte (k := i + 2), byte (k := i + 3)]

end Positions

/-- A pixel outside a complete bitmap is not read. One inside is read from its own four bytes, and
no step to their index overflows, where they begin before byte `2 ^ 32`. Where they begin behind it,
a build that checks its numbers panics, and one that does not reads the four bytes at the
remainder. -/
theorem pixel?_eq_stored? (b : Bitmap) (complete : b.Complete) (a : Arithmetic) (x y : UInt32) :
    (x < b.width → y < b.height →
      (b.place x y < UInt32.size →
        ∃ p, b.stored? (b.place x y) = some p ∧ b.pixel? a x y = .ok (some p)) ∧
      (UInt32.size ≤ b.place x y →
        b.pixel? .checked x y = .error .overflow ∧
        ∃ p, b.stored? (b.place x y % UInt32.size) = some p ∧
          b.pixel? .wrapping x y = .ok (some p))) ∧
    (¬(x < b.width ∧ y < b.height) → b.pixel? a x y = .ok none) := by
  refine ⟨fun hx hy => ?_, pixel?_of_outside⟩
  have there := place_add_le complete hx hy
  constructor
  · intro small
    obtain ⟨p, found⟩ := exists_stored? there
    refine ⟨p, found, ?_⟩
    rw [pixel?_of_inside hx hy, Arithmetic.fit_of_lt small, ← found]
    rfl
  · intro large
    have lower : b.place x y % UInt32.size ≤ b.place x y := Nat.mod_le _ _
    obtain ⟨p, found⟩ := exists_stored? (b := b) (i := b.place x y % UInt32.size) (by omega)
    refine ⟨?_, p, found, ?_⟩
    · rw [pixel?_of_inside hx hy, Arithmetic.checked_of_le large]
      rfl
    · rw [pixel?_of_inside hx hy, ← found]
      rfl

/-- The second pixel of two, and the place below it, in both kinds of builds. -/
theorem pixel?_eq_stored?_two :
    let b : Bitmap := ⟨2, 1, ⟨#[1, 2, 3, 4, 5, 6, 7, 8]⟩⟩
    b.Complete ∧ b.pixel? .checked 1 0 = .ok (some ⟨5, 6, 7, 8⟩) ∧
      b.pixel? .wrapping 1 0 = .ok (some ⟨5, 6, 7, 8⟩) ∧ b.pixel? .checked 1 1 = .ok none := by
  intro b
  have complete : b.Complete := rfl
  have read (a : Arithmetic) : b.pixel? a 1 0 = .ok (some ⟨5, 6, 7, 8⟩) := by
    obtain ⟨p, stored, read⟩ :=
      ((pixel?_eq_stored? b complete a 1 0).1 (by decide) (by decide)).1 (by decide)
    cases stored
    exact read
  exact ⟨complete, read .checked, read .wrapping,
    (pixel?_eq_stored? b complete .checked 1 1).2 (by decide)⟩

/-- A picture whose first pixel is red. All others are transparent. -/
def spotted (width height : UInt32) : Bitmap where
  width
  height
  data := ⟨#[255, 0, 0, 255] ++ Array.replicate (4 * width.toNat * height.toNat - 4) 0⟩

section Spotted

variable {width height : UInt32}

theorem complete_spotted (h : 4 ≤ 4 * width.toNat * height.toNat) :
    (spotted width height).Complete := by
  show (#[255, 0, 0, 255] ++ Array.replicate _ 0 : Array UInt8).size = _
  rw [Array.size_append, Array.size_replicate]
  show 4 + _ = 4 * width.toNat * height.toNat
  omega

theorem stored?_spotted_zero : (spotted width height).stored? 0 = some ⟨255, 0, 0, 255⟩ := by
  have byte {k : Nat} (hk : k < 4) :
      (spotted width height).data[k]? = (#[255, 0, 0, 255] : Array UInt8)[k]? :=
    Array.getElem?_append_left hk
  rw [stored?, byte (by decide), byte (by decide), byte (by decide), byte (by decide)]
  rfl

theorem stored?_spotted {i : Nat} (h : 4 ≤ i) (le : i + 4 ≤ 4 * width.toNat * height.toNat) :
    (spotted width height).stored? i = some ⟨0, 0, 0, 0⟩ := by
  have byte {k : Nat} (hk : i ≤ k) (less : k < i + 4) :
      (spotted width height).data[k]? = some 0 := by
    refine (Array.getElem?_append_right (show 4 ≤ k by omega)).trans ?_
    rw [Array.getElem?_replicate, if_pos]
    show k - 4 < _
    omega
  rw [stored?, byte (by omega) (by omega), byte (by omega) (by omega), byte (by omega) (by omega),
    byte (by omega) (by omega)]
  rfl

end Spotted

/-- In a picture of more than `2 ^ 30` pixels there is a transparent one that is not read: a build
that checks its numbers panics, and one that does not reads the first pixel, which is red. -/
theorem pixel?_ne_stored? :
    let b := spotted 65536 16385
    b.Complete ∧ (0 < b.width ∧ 16384 < b.height) ∧
      b.stored? (b.place 0 16384) = some ⟨0, 0, 0, 0⟩ ∧
      b.pixel? .checked 0 16384 = .error .overflow ∧
      b.pixel? .wrapping 0 16384 = .ok (some ⟨255, 0, 0, 255⟩) := by
  intro b
  have hx : 0 < b.width := by decide
  have hy : 16384 < b.height := by decide
  refine ⟨complete_spotted (by decide), ⟨hx, hy⟩, stored?_spotted (by decide) (by decide), ?_, ?_⟩
  · rw [pixel?_of_inside hx hy, Arithmetic.checked_of_le (by decide)]
    rfl
  · have first : b.place 0 16384 % UInt32.size = 0 := by decide
    rw [pixel?_of_inside hx hy, Arithmetic.fit, first]
    exact congrArg Except.ok stored?_spotted_zero

end Bitmap

end FormulaInk
