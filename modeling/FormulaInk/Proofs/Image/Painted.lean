import FormulaInk.Proofs.Image.Straight
import FormulaInk.Rendering

/-! Pictures of icons. Painting keeps the size of a canvas, so its surface has the bytes that its
size asks for, and sides that a picture can have ask for few enough. So an icon has a picture exactly
if its sides are such, and no build comes to a number that is too large. -/

namespace FormulaInk

namespace Raster.Canvas

/-- One canvas has the size of another and as many bytes. -/
structure Fits (c d : Canvas) : Prop where
  width : c.width = d.width
  height : c.height = d.height
  size : c.data.size = d.data.size

theorem Fits.refl (c : Canvas) : Fits c c := ⟨rfl, rfl, rfl⟩

theorem Fits.trans {c d e : Canvas} (h : Fits c d) (h' : Fits d e) : Fits c e :=
  ⟨h.width.trans h'.width, h.height.trans h'.height, h.size.trans h'.size⟩

section Sizes

variable {α : Type}

theorem fits_foldl {step : Canvas → α → Canvas} (h : ∀ c x, Fits (step c x) c) (c : Canvas)
    (xs : List α) : Fits (xs.foldl step c) c :=
  List.foldlRecOn xs step (motive := (Fits · c)) (.refl c) fun d kept x _ => (h d x).trans kept

theorem size_foldl {step : ByteArray → α → ByteArray} (h : ∀ data x, (step data x).size = data.size)
    (data : ByteArray) (xs : List α) : (xs.foldl step data).size = data.size :=
  List.foldlRecOn xs step (motive := (·.size = data.size)) rfl fun d kept x _ => (h d x).trans kept

theorem size_setSpan (data : ByteArray) (start count : Nat) (color : Color) :
    (setSpan data start count color).size = data.size :=
  size_fold (fun i data => by simp only [setPixel, ByteArray.size_set!]) count data

theorem size_fillRow (width row : Nat) (polygon : Polygon) (color : Color) (data : ByteArray) :
    (fillRow width row polygon color data).size = data.size := by
  cases polygon with
  | nil => rfl
  | cons first rest => exact size_foldl (fun data span => size_setSpan data _ _ color) data _

theorem fits_clear (c : Canvas) (color : Color) : Fits (c.clear color) c :=
  ⟨rfl, rfl, size_setSpan c.data 0 _ color⟩

theorem fits_fillPolygon (c : Canvas) (polygon : Polygon) (color : Color) :
    Fits (c.fillPolygon polygon color) c := by
  unfold fillPolygon
  split
  · exact .refl c
  · exact ⟨rfl, rfl, size_fold (fun i data => size_fillRow c.width _ polygon color data) _ c.data⟩

theorem fits_paint (c : Canvas) (command : Command Float32 Float) : Fits (c.paint command) c := by
  rw [paint]
  exact fits_foldl (fun c polygon => fits_fillPolygon c polygon command.pen.color) c _

theorem fits_paintAll (c : Canvas) (g : Recording Float32 Float) : Fits (c.paintAll g) c := by
  rw [paintAll]
  exact fits_foldl fits_paint c g.commands

theorem size_blank (width height : Nat) : (blank width height).data.size = 4 * width * height := by
  have row (n : Nat) : (n.fold (fun _ _ row => row.push 0) ByteArray.empty).size = n := by
    induction n with
    | zero => rfl
    | succ n ih => rw [Nat.fold_succ, ByteArray.size_push, ih]
  have rows (bytes data : ByteArray) (n : Nat) :
      (n.fold (fun _ _ data => data ++ bytes) data).size = data.size + bytes.size * n := by
    induction n with
    | zero => rfl
    | succ n ih => rw [Nat.fold_succ, ByteArray.size_append, ih, Nat.mul_succ, Nat.add_assoc]
  rw [blank, rows, row]
  exact Nat.zero_add _

end Sizes

end Raster.Canvas

namespace Icon

section Pictures

variable {i : Icon Float32} {width height : Nat}

theorem pictureSize_of_ofNat (w : i.width = .ofNat width) (h : i.height = .ofNat height) :
    i.pictureSize =
      if longestSide < width ∨ longestSide < height then .error (.tooLarge width height longestSide)
      else .ok (width, height) := by
  unfold pictureSize
  rw [w, h]

theorem pictureSize_eq_ok_iff : i.pictureSize = .ok (width, height) ↔
    i.width = width ∧ i.height = height ∧ width ≤ longestSide ∧ height ≤ longestSide := by
  cases hw : i.width with
  | negSucc n =>
    unfold pictureSize
    rw [hw]
    constructor
    · intro found
      cases found
    · rintro ⟨same, -⟩
      cases same
  | ofNat w =>
    cases hh : i.height with
    | negSucc n =>
      unfold pictureSize
      rw [hw, hh]
      constructor
      · intro found
        cases found
      · rintro ⟨-, same, -⟩
        cases same
    | ofNat h =>
      rw [pictureSize_of_ofNat hw hh, Int.ofNat_eq_natCast, Int.ofNat_eq_natCast, Int.natCast_inj,
        Int.natCast_inj]
      by_cases large : longestSide < w ∨ longestSide < h
      · rw [if_pos large]
        constructor
        · intro found
          cases found
        · rintro ⟨rfl, rfl, wide, high⟩
          omega
      · rw [if_neg large, Except.ok.injEq, Prod.mk.injEq]
        omega

/-- A canvas with sides that a picture can have makes a bitmap in every build. -/
theorem exists_toBitmap_surface {c : Raster.Canvas} (a : Arithmetic)
    (full : c.data.size = 4 * c.width * c.height) (wide : c.width ≤ longestSide)
    (high : c.height ≤ longestSide) :
    ∃ b, c.surface.toBitmap a = .ok b ∧ b.width.toNat = c.width ∧ b.height.toNat = c.height ∧
      b.Complete := by
  have width : c.surface.width.toNat = c.width :=
    UInt32.toNat_ofNat_of_lt (Nat.lt_of_le_of_lt wide (by decide))
  have height : c.surface.height.toNat = c.height :=
    UInt32.toNat_ofNat_of_lt (Nat.lt_of_le_of_lt high (by decide))
  have size : c.surface.fullSize = c.surface.data.size := by
    rw [Surface.fullSize, width, height]
    exact full.symm
  have small : c.surface.fullSize < UInt64.size := by
    have most : c.width * c.height ≤ longestSide * longestSide := Nat.mul_le_mul wide high
    rw [Surface.fullSize, width, height, Nat.mul_assoc]
    exact Nat.lt_of_le_of_lt (Nat.mul_le_mul_left 4 most) (by decide)
  have count : a.fit UInt64.size c.surface.fullSize = .ok c.surface.data.size := by
    rw [Arithmetic.fit_of_lt small, size]
  refine ⟨_, Surface.toBitmap_eq_ok_iff.mpr ⟨count, rfl⟩, width, height, ?_⟩
  rw [Bitmap.Complete]
  exact size_straightenAll.trans size.symm

theorem ground_of_sides (w : 0 < width) (h : 0 < height) (wide : width ≤ longestSide)
    (background : Option Color) (transparent : Bool) :
    ∃ c, ground width height background transparent = .ok c ∧
      Raster.Canvas.Fits c (.blank width height) := by
  have made : Raster.Canvas.new width height = .ok (.blank width height) := by
    refine if_neg ?_
    rw [Raster.Canvas.mostRowBytes]
    rw [longestSide] at wide
    omega
  unfold ground
  rw [made]
  cases background with
  | none => exact ⟨_, rfl, .refl _⟩
  | some color =>
    cases transparent with
    | true => exact ⟨_, rfl, .refl _⟩
    | false => exact ⟨_, rfl, Raster.Canvas.fits_clear _ color⟩

theorem ground_of_no_side (none : width = 0 ∨ height = 0) (background : Option Color)
    (transparent : Bool) : ∃ e, ground width height background transparent = .error e := by
  have refused : Raster.Canvas.new width height = .error (.canvasSize width height) :=
    if_pos (none.imp_right .inl)
  unfold ground
  rw [refused]
  exact ⟨_, rfl⟩

theorem rasterize_of_size (size : i.pictureSize = .ok (width, height)) (background : Option Color)
    (transparent : Bool) :
    i.rasterize background transparent =
      (do
        let canvas ← (ground width height background transparent).mapError Halt.fault
        (canvas.paintAll (i.paint 0 0 .blank)).surface.toBitmap .checked) := by
  unfold rasterize
  rw [size]
  rfl

/-- Whether each side has from one to `longestSide` pixels. -/
def FitsPicture (i : Icon Float32) : Prop :=
  (0 < i.width ∧ i.width ≤ longestSide) ∧ 0 < i.height ∧ i.height ≤ longestSide

theorem rasterize_of_fits (fits : i.FitsPicture) (background : Option Color) (transparent : Bool) :
    ∃ b, i.rasterize background transparent = .ok b ∧ b.width.toNat = i.width ∧
      b.height.toNat = i.height ∧ b.Complete := by
  obtain ⟨⟨w, wide⟩, h, high⟩ := fits
  obtain ⟨width, hw⟩ := Int.eq_ofNat_of_zero_le (Int.le_of_lt w)
  obtain ⟨height, hh⟩ := Int.eq_ofNat_of_zero_le (Int.le_of_lt h)
  rw [hw] at w wide ⊢
  rw [hh] at h high ⊢
  rw [rasterize_of_size (pictureSize_eq_ok_iff.mpr
    ⟨hw, hh, Int.ofNat_le.mp wide, Int.ofNat_le.mp high⟩)]
  obtain ⟨c, made, same⟩ := ground_of_sides (Int.natCast_pos.mp w) (Int.natCast_pos.mp h)
    (Int.ofNat_le.mp wide) background transparent
  have painted := (c.fits_paintAll (i.paint 0 0 .blank)).trans same
  have full : (c.paintAll (i.paint 0 0 .blank)).data.size =
      4 * (c.paintAll (i.paint 0 0 .blank)).width * (c.paintAll (i.paint 0 0 .blank)).height := by
    rw [painted.size, painted.width, painted.height, Raster.Canvas.size_blank]
    rfl
  obtain ⟨b, bitmap, across, down, complete⟩ := exists_toBitmap_surface .checked full
    (painted.width ▸ Int.ofNat_le.mp wide) (painted.height ▸ Int.ofNat_le.mp high)
  rw [made]
  exact ⟨b, bitmap, congrArg Nat.cast (across.trans painted.width),
    congrArg Nat.cast (down.trans painted.height), complete⟩

theorem rasterize_of_not_fits (misfit : ¬i.FitsPicture) (background : Option Color)
    (transparent : Bool) : ∃ e, i.rasterize background transparent = .error (.fault e) := by
  cases size : i.pictureSize with
  | error e =>
    unfold rasterize
    rw [size]
    exact ⟨e, rfl⟩
  | ok sides =>
    obtain ⟨width, height⟩ := sides
    obtain ⟨hw, hh, wide, high⟩ := pictureSize_eq_ok_iff.mp size
    have none : width = 0 ∨ height = 0 := by
      rw [FitsPicture, hw, hh] at misfit
      omega
    obtain ⟨e, refused⟩ := ground_of_no_side none background transparent
    rw [rasterize_of_size size, refused]
    exact ⟨e, rfl⟩

theorem fits_of_rasterize {background : Option Color} {transparent : Bool} {b : Bitmap}
    (made : i.rasterize background transparent = .ok b) : i.FitsPicture := by
  by_contra misfit
  obtain ⟨e, refused⟩ := rasterize_of_not_fits misfit background transparent
  cases made.symm.trans refused

end Pictures

/-- An icon has a picture exactly if each of its sides has from one to `longestSide` pixels. The
picture has these sides and four bytes for each pixel. Where there is none, a fault is returned. -/
theorem exists_rasterize_iff (i : Icon Float32) (background : Option Color) (transparent : Bool) :
    ((∃ b, i.rasterize background transparent = .ok b) ↔ i.FitsPicture) ∧
    (∀ b, i.rasterize background transparent = .ok b →
      b.width.toNat = i.width ∧ b.height.toNat = i.height ∧ b.Complete) ∧
    (¬i.FitsPicture → ∃ e, i.rasterize background transparent = .error (.fault e)) := by
  refine ⟨⟨fun ⟨_, made⟩ => fits_of_rasterize made, fun fits => ?_⟩, fun b made => ?_,
    fun misfit => rasterize_of_not_fits misfit background transparent⟩
  · obtain ⟨b, made, -⟩ := rasterize_of_fits fits background transparent
    exact ⟨b, made⟩
  · obtain ⟨b', made', sides⟩ :=
      rasterize_of_fits (fits_of_rasterize made) background transparent
    cases made.symm.trans made'
    exact sides

end Icon

end FormulaInk
