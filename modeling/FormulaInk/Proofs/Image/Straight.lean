import Mathlib.Tactic.ByContra
import FormulaInk.Proofs.Image.Pixels

/-! Bitmaps of surfaces. A surface has a bitmap if the number of its bytes is the one that its size
asks for. That number is a word of 64 bits; where it is too large for one, a build that checks its
numbers panics, and one that does not compares with the remainder. The bitmap has the surface's
pixels, each one straightened by itself. -/

namespace FormulaInk

/-- The pixel with its color divided by its alpha, where the alpha is neither none nor full. -/
def Pixel.straight (p : Pixel) : Pixel :=
  if p.a = 0 ∨ p.a = 255 then p
  else ⟨straighten p.a p.r, straighten p.a p.g, straighten p.a p.b, p.a⟩

theorem Pixel.straight_of_kept {p : Pixel} (h : p.a = 0 ∨ p.a = 255) : p.straight = p := if_pos h

@[simp] theorem Pixel.a_straight (p : Pixel) : p.straight.a = p.a := by
  unfold straight
  split <;> rfl

/-- The four bytes from an index on are those of a pixel. -/
structure Stores (data : ByteArray) (i : Nat) (p : Pixel) : Prop where
  r : data[i]? = some p.r
  g : data[i + 1]? = some p.g
  b : data[i + 2]? = some p.b
  a : data[i + 3]? = some p.a

section Bytes

variable {data : ByteArray} {i k : Nat} {v : UInt8} {p : Pixel}

theorem getElem?_set!_self (h : i < data.size) : (data.set! i v)[i]? = some v :=
  Array.getElem?_setIfInBounds_self_of_lt h

theorem getElem?_set!_ne (h : i ≠ k) : (data.set! i v)[k]? = data[k]? :=
  Array.getElem?_setIfInBounds_ne h

theorem get!_of_getElem? (h : data[i]? = some v) : data.get! i = v := by
  have byte : data.data[i]? = some v := h
  show data.data[i]! = v
  rw [getElem!_def, byte]

theorem Stores.lt_size (h : Stores data i p) : i + 3 < data.size := by
  by_contra outside
  have absent : data[i + 3]? = none := getElem?_neg data (i + 3) outside
  cases absent.symm.trans h.a

theorem stored?_eq_some {b : Bitmap} : b.stored? i = some p ↔ Stores b.data i p := by
  constructor
  · intro h
    simp only [Bitmap.stored?, Option.bind_eq_bind, Option.bind_eq_some_iff] at h
    obtain ⟨r, hr, g, hg, bl, hb, a, ha, same⟩ := h
    cases same
    exact ⟨hr, hg, hb, ha⟩
  · intro h
    simp [Bitmap.stored?, h.r, h.g, h.b, h.a]

/-- Bytes of the pixel alone tell what is stored there. -/
theorem Stores.congr {other : ByteArray} (h : Stores data (4 * i) p)
    (same : ∀ k, k / 4 = i → other[k]? = data[k]?) : Stores other (4 * i) p where
  r := (same _ (by omega)).trans h.r
  g := (same _ (by omega)).trans h.g
  b := (same _ (by omega)).trans h.b
  a := (same _ (by omega)).trans h.a

theorem getElem?_straightenPixel (h : k / 4 ≠ i) : (straightenPixel data i)[k]? = data[k]? := by
  unfold straightenPixel
  simp only
  split
  · rfl
  · rw [getElem?_set!_ne (by omega), getElem?_set!_ne (by omega), getElem?_set!_ne (by omega)]

theorem size_straightenPixel : (straightenPixel data i).size = data.size := by
  unfold straightenPixel
  simp only
  split
  · rfl
  · simp only [ByteArray.size_set!]

theorem Stores.straightenPixel (h : Stores data (4 * i) p) :
    Stores (straightenPixel data i) (4 * i) p.straight := by
  have room := h.lt_size
  have r : data.get! (4 * i) = p.r := get!_of_getElem? h.r
  have g : data.get! (4 * i + 1) = p.g := get!_of_getElem? h.g
  have b : data.get! (4 * i + 2) = p.b := get!_of_getElem? h.b
  have a : data.get! (4 * i + 3) = p.a := get!_of_getElem? h.a
  unfold FormulaInk.straightenPixel Pixel.straight
  simp only [r, g, b, a]
  split
  · exact h
  · constructor
    · rw [getElem?_set!_ne (by omega), getElem?_set!_ne (by omega), getElem?_set!_self (by omega)]
    · rw [getElem?_set!_ne (by omega), getElem?_set!_self (by rw [ByteArray.size_set!]; omega)]
    · rw [getElem?_set!_self (by rw [ByteArray.size_set!, ByteArray.size_set!]; omega)]
    · rw [getElem?_set!_ne (by omega), getElem?_set!_ne (by omega), getElem?_set!_ne (by omega)]
      exact h.a

/-- The pixels before the `n`th are straight once they were passed, and the others are as they
were. -/
theorem Stores.fold (h : Stores data (4 * i) p) (n : Nat) :
    Stores (n.fold (fun j _ data => FormulaInk.straightenPixel data j) data) (4 * i)
      (if i < n then p.straight else p) := by
  induction n with
  | zero => exact h
  | succ n ih =>
    rw [Nat.fold_succ]
    by_cases last : i = n
    · subst last
      rw [if_neg (Nat.lt_irrefl i)] at ih
      rw [if_pos (Nat.lt_succ_self i)]
      exact ih.straightenPixel
    · have passed : i < n + 1 ↔ i < n := by omega
      simp only [passed]
      exact ih.congr fun k place => getElem?_straightenPixel (by omega)

theorem size_fold {step : Nat → ByteArray → ByteArray}
    (h : ∀ i data, (step i data).size = data.size) (n : Nat) (data : ByteArray) :
    (n.fold (fun i _ data => step i data) data).size = data.size := by
  induction n with
  | zero => rfl
  | succ n ih => rw [Nat.fold_succ, h, ih]

theorem size_straightenAll : (straightenAll data).size = data.size :=
  size_fold (fun _ _ => size_straightenPixel) _ data

theorem Stores.straightenAll (h : Stores data (4 * i) p) :
    Stores (straightenAll data) (4 * i) p.straight := by
  have inside : i < data.size / 4 := by
    have room := h.lt_size
    omega
  have run := h.fold (data.size / 4)
  rwa [if_pos inside] at run

end Bytes

namespace Surface

/-- The bytes of a surface as they were painted. -/
def painted (s : Surface) : Bitmap := ⟨s.width, s.height, s.data⟩

/-- The number of bytes that the size of a surface asks for, without a limit. -/
def fullSize (s : Surface) : Nat := 4 * s.width.toNat * s.height.toNat

theorem byteCount_eq_fit (s : Surface) (a : Arithmetic) :
    s.byteCount a = a.fit UInt64.size s.fullSize := by
  rw [byteCount, Arithmetic.fit_mul a _ _ (by decide), fullSize, Nat.mul_comm _ 4, Nat.mul_assoc]

section Sizes

variable {s : Surface} {a : Arithmetic} {b : Bitmap}

theorem toBitmap_of_fit {n : Nat} (h : a.fit UInt64.size s.fullSize = .ok n) :
    s.toBitmap a =
      if s.data.size ≠ n then .error (.fault (.dataSize n s.data.size))
      else .ok ⟨s.width, s.height, if s.premultiplied then straightenAll s.data else s.data⟩ := by
  rw [toBitmap, byteCount_eq_fit, h]
  rfl

theorem toBitmap_of_overflow (large : UInt64.size ≤ s.fullSize) :
    s.toBitmap .checked = .error (.panic .overflow) := by
  rw [toBitmap, byteCount_eq_fit, Arithmetic.checked_of_le large]
  rfl

theorem toBitmap_eq_ok_iff :
    s.toBitmap a = .ok b ↔ a.fit UInt64.size s.fullSize = .ok s.data.size ∧
      b = ⟨s.width, s.height, if s.premultiplied then straightenAll s.data else s.data⟩ := by
  cases count : a.fit UInt64.size s.fullSize with
  | error p =>
    rw [toBitmap, byteCount_eq_fit, count]
    constructor
    · intro made
      cases made
    · rintro ⟨found, -⟩
      cases found
  | ok n =>
    rw [toBitmap_of_fit count]
    by_cases same : s.data.size = n
    · rw [if_neg (not_not.mpr same), same, Except.ok.injEq]
      exact ⟨fun made => ⟨rfl, made.symm⟩, fun made => made.2.symm⟩
    · rw [if_pos same]
      constructor
      · intro made
        cases made
      · rintro ⟨found, -⟩
        exact absurd (Except.ok.inj found).symm same

theorem exists_toBitmap :
    (∃ b, s.toBitmap a = .ok b) ↔ a.fit UInt64.size s.fullSize = .ok s.data.size := by
  simp only [toBitmap_eq_ok_iff, exists_and_left, exists_eq, and_true]

theorem stored?_toBitmap (h : s.toBitmap a = .ok b) {i : Nat} {p : Pixel}
    (stored : s.painted.stored? (4 * i) = some p) :
    b.stored? (4 * i) = some (if s.premultiplied then p.straight else p) := by
  obtain ⟨-, rfl⟩ := toBitmap_eq_ok_iff.mp h
  rw [stored?_eq_some] at stored ⊢
  cases s.premultiplied with
  | true => exact stored.straightenAll
  | false => exact stored

end Sizes

/-- Where the number of bytes that the size of a surface asks for is a word of 64 bits, the check is
exact: there is a bitmap if the surface has that many bytes, and else the fault that names both
numbers. Where it is too large for a word, a build that checks its numbers panics, and one that does
not compares with the remainder. A bitmap has the size of the surface and as many bytes. Every pixel
keeps its alpha, and one that is opaque or transparent or not multiplied by its alpha keeps its
color. -/
theorem exists_toBitmap_iff (s : Surface) (a : Arithmetic) :
    (s.fullSize < UInt64.size →
      ((∃ b, s.toBitmap a = .ok b) ↔ s.painted.Complete) ∧
      (¬s.painted.Complete →
        s.toBitmap a = .error (.fault (.dataSize s.fullSize s.data.size)))) ∧
    (UInt64.size ≤ s.fullSize →
      s.toBitmap .checked = .error (.panic .overflow) ∧
      ((∃ b, s.toBitmap .wrapping = .ok b) ↔ s.data.size = s.fullSize % UInt64.size)) ∧
    ∀ b, s.toBitmap a = .ok b →
      b.width = s.width ∧ b.height = s.height ∧ b.data.size = s.data.size ∧
        ∀ i, 4 * i < s.data.size → ∃ p q,
          s.painted.stored? (4 * i) = some p ∧ b.stored? (4 * i) = some q ∧ q.a = p.a ∧
            (s.premultiplied = false ∨ p.a = 0 ∨ p.a = 255 → q = p) := by
  refine ⟨fun small => ?_, fun large => ⟨toBitmap_of_overflow large, ?_⟩, fun b made => ?_⟩
  · have count : a.fit UInt64.size s.fullSize = .ok s.fullSize := Arithmetic.fit_of_lt small
    refine ⟨?_, fun other => ?_⟩
    · rw [exists_toBitmap, count, Except.ok.injEq, eq_comm]
      exact Iff.rfl
    · exact (toBitmap_of_fit count).trans (if_pos other)
  · rw [exists_toBitmap, Arithmetic.fit, Except.ok.injEq, eq_comm]
  · obtain ⟨count, same⟩ := toBitmap_eq_ok_iff.mp made
    refine ⟨by rw [same], by rw [same], ?_, fun i inside => ?_⟩
    · rw [same]
      cases s.premultiplied with
      | true => exact size_straightenAll
      | false => rfl
    · have whole : 4 * i + 4 ≤ s.data.size := by
        -- The limit is a multiple of four, so no pixel is cut off at the end.
        have size := Arithmetic.eq_mod_of_fit count
        rw [fullSize, Nat.mul_assoc, UInt64.size] at size
        omega
      obtain ⟨p, stored⟩ := Bitmap.exists_stored? (b := s.painted) whole
      refine ⟨p, _, stored, stored?_toBitmap made stored, ?_, fun kept => ?_⟩
      · cases s.premultiplied with
        | true => exact p.a_straight
        | false => rfl
      · cases multiplied : s.premultiplied with
        | true =>
          obtain plain | kept := kept
          · cases multiplied.symm.trans plain
          · exact Pixel.straight_of_kept kept
        | false => rfl

/-- Of two pixels the second one is opaque. -/
theorem exists_toBitmap_iff_two :
    let s : Surface := ⟨2, 1, true, ⟨#[64, 0, 0, 128, 10, 20, 30, 255]⟩⟩
    s.fullSize < UInt64.size ∧ s.painted.Complete ∧
      ∃ b, s.toBitmap .checked = .ok b ∧ b.data.size = 8 ∧
        (b.stored? 0).map Pixel.a = some 128 ∧ b.stored? 4 = some ⟨10, 20, 30, 255⟩ := by
  intro s
  have small : s.fullSize < UInt64.size := by decide
  have complete : s.painted.Complete := rfl
  obtain ⟨checked, -, kept⟩ := exists_toBitmap_iff s .checked
  obtain ⟨b, made⟩ := (checked small).1.mpr complete
  obtain ⟨-, -, size, pixels⟩ := kept b made
  obtain ⟨p, q, first, straight, alpha, -⟩ := pixels 0 (by decide)
  obtain ⟨p', q', second, second', -, same⟩ := pixels 1 (by decide)
  cases first
  cases second
  obtain rfl := same (.inr (.inr rfl))
  refine ⟨small, complete, b, made, size, ?_, second'⟩
  rw [straight, Option.map_some, alpha]
  rfl

/-- A surface of `2 ^ 62` pixels and no bytes at all is not refused: a build that checks its numbers
panics, and one that does not makes a bitmap of it. -/
theorem not_exists_toBitmap_iff :
    let s : Surface := ⟨2147483648, 2147483648, true, .empty⟩
    ¬s.painted.Complete ∧ s.toBitmap .checked = .error (.panic .overflow) ∧
      ∃ b, s.toBitmap .wrapping = .ok b := by
  intro s
  refine ⟨by unfold Bitmap.Complete; decide, toBitmap_of_overflow (by decide), ?_⟩
  have none : s.fullSize % UInt64.size = 0 := by decide
  exact exists_toBitmap.mpr (congrArg Except.ok none)

end Surface

end FormulaInk
