import Mathlib
import FormulaInk.Proofs.Ink.Room

/-! Where a fraction puts its numerator, its bar and its denominator, in exact arithmetic. The bar
keeps its distance from both, and stands on the axis unless setting the numerator in a wider row makes
the numerator taller. -/

namespace FormulaInk

/-! ### Boxes as they are laid out have no shift -/

namespace Atom

variable {α : Type} [Scalar α]

/-- Only what puts a box in a row or a stack gives it a shift. -/
theorem shift_layout (a : Atom α) (s : Setting α) : (a.layout s).box.shift = Scalar.whole 0 := by
  induction a using Atom.induction generalizing s with
  | step a ih =>
    cases a with
    | symbol name ch kind =>
      rw [layout]
      dsimp only [Laid.plain]
      split <;> rfl
    | typed left right base => exact ih base (List.mem_singleton_self _) s
    | styled type base => exact ih base (List.mem_singleton_self _) (s.withFontType type)
    | color background foreground base =>
      have inner := ih base (List.mem_singleton_self _) s
      rw [layout]
      dsimp only
      rw [← inner]
      cases (layout s base).box <;> rfl
    | scripts base sup sub =>
      have inner := ih base (by simp [parts]) s
      rw [layout]
      cases sup with
      | some sup => cases sub <;> rfl
      | none =>
        cases sub with
        | some sub => rfl
        | none => exact inner
    | scaled x y base =>
      rw [layout]
      dsimp only [Laid.map, Box.scale]
      split <;> rfl
    | _ => rfl

end Atom

namespace Box

/-! ### The ink of rows and stacks without colors -/

section Extents

variable {α : Type} [Scalar α] (width height depth : α)

@[simp] theorem height_space : (space width height depth).height = height := rfl

@[simp] theorem depth_space : (space width height depth).depth = depth := rfl

@[simp] theorem height_bar : (bar width height depth).height = height := rfl

@[simp] theorem depth_bar : (bar width height depth).depth = depth := rfl

@[simp] theorem shift_bar : (bar width height depth).shift = Scalar.whole 0 := rfl

end Extents

section Plain

variable {α δ : Type} [Scalar α] [Scalar δ] [Widening α δ] (x y : α) (pen : Pen α δ)

@[simp] theorem ink_space (width height depth : α) :
    Visit.ink ⟨space width height depth, x, y, pen⟩ = [] := by
  rw [Visit.ink_eq, Visit.commands_eq]
  rfl

@[simp] theorem ink_kern (width : α) : Visit.ink ⟨kern width, x, y, pen⟩ = [] := ink_space ..

@[simp] theorem ink_bar (width height depth : α) :
    Visit.ink ⟨bar width height depth, x, y, pen⟩ =
      [⟨.fillRect ⟨x, y - height, width, height + depth⟩, pen⟩] := by
  rw [Visit.ink_eq, Visit.commands_eq]
  rfl

theorem ink_hbox (children : List (Box α)) :
    Visit.ink ⟨hbox children, x, y, pen⟩ = (rowVisits pen children x y).flatMap Visit.ink := by
  rw [Visit.ink_eq, Visit.commands_eq]
  rfl

theorem ink_stack (children : List (Box α)) (height : α) :
    Visit.ink ⟨stack children height, x, y, pen⟩ =
      (stackVisits pen children x (y - height)).flatMap Visit.ink := by
  rw [Visit.ink_eq, Visit.commands_eq]
  rfl

end Plain

/-! ### Set in a width -/

section Aligned

variable {α : Type} [Turns α] [Field α] [LinearOrder α] {b : Box α} {width : α}

/-- How much one end of a box gains when the box is set in a width, given how far the end is from the
baseline: the space beside a narrow box reaches the baseline. -/
def gain (b : Box α) (width extent : α) : α := if b.width < width then 0 ⊔ -extent else 0

theorem gain_nonneg (b : Box α) (width extent : α) : 0 ≤ b.gain width extent := by
  rw [gain]
  split
  · exact le_sup_left
  · exact le_refl 0

theorem shift_aligned (b : Box α) (width : α) : (b.aligned width .center).shift = 0 := by
  rw [aligned]
  split <;> exact Scalar.whole_zero

variable [IsStrictOrderedRing α]

theorem gain_eq_zero_iff {extent : α} :
    b.gain width extent = 0 ↔ width ≤ b.width ∨ 0 ≤ extent := by
  rw [gain]
  split
  · next narrow => simp [not_le.mpr narrow]
  · next wide => simp [not_lt.mp wide]

theorem aligned_of_wide (wide : width ≤ b.width) : b.aligned width .center = hbox [b] := by
  rw [aligned, Scalar.whole_zero, if_pos (sub_nonpos.mpr wide)]

theorem aligned_of_narrow (narrow : b.width < width) :
    b.aligned width .center =
      hbox [kern ((width - b.width) / 2), b, kern ((width - b.width) / 2)] := by
  rw [aligned, Scalar.whole_zero, if_neg (not_le.mpr (sub_pos.mpr narrow)), Scalar.whole_eq,
    Nat.cast_ofNat]

omit [IsStrictOrderedRing α] in
theorem extent_hbox_kerns (b : Box α) (left right : α) :
    (hbox [kern left, b, kern right]).height = 0 ⊔ b.ascent ∧
      (hbox [kern left, b, kern right]).depth = 0 ⊔ b.descent := by
  constructor
  · show Scalar.max (Scalar.max (Scalar.whole 0 - Scalar.whole 0) b.ascent)
      (Scalar.whole 0 - Scalar.whole 0) = _
    rw [Scalar.max_eq, Scalar.max_eq, Scalar.whole_zero, sub_zero, sup_eq_left.mpr le_sup_left]
  · show Scalar.max (Scalar.max (Scalar.whole 0 + Scalar.whole 0) b.descent)
      (Scalar.whole 0 + Scalar.whole 0) = _
    rw [Scalar.max_eq, Scalar.max_eq, Scalar.whole_zero, add_zero, sup_eq_left.mpr le_sup_left]

variable (unshifted : b.shift = 0)

include unshifted

theorem height_aligned (width : α) :
    (b.aligned width .center).height = b.height + b.gain width b.height := by
  rw [gain]
  split
  · next narrow =>
    rw [aligned_of_narrow narrow, (extent_hbox_kerns ..).1, ascent, unshifted, sub_zero,
      ← max_add_add_left, add_zero, add_neg_cancel, sup_comm]
  · next wide =>
    rw [aligned_of_wide (not_lt.mp wide), add_zero]
    show b.height - b.shift = b.height
    rw [unshifted, sub_zero]

theorem depth_aligned (width : α) :
    (b.aligned width .center).depth = b.depth + b.gain width b.depth := by
  rw [gain]
  split
  · next narrow =>
    rw [aligned_of_narrow narrow, (extent_hbox_kerns ..).2, descent, unshifted, add_zero,
      ← max_add_add_left, add_zero, add_neg_cancel, sup_comm]
  · next wide =>
    rw [aligned_of_wide (not_lt.mp wide), add_zero]
    show b.depth + b.shift = b.depth
    rw [unshifted, add_zero]

/-- A box that is set in a width is painted in the middle of it. -/
theorem ink_aligned (fits : b.width ≤ width) (x y : α) (pen : Pen α α) :
    Visit.ink ⟨b.aligned width .center, x, y, pen⟩ =
      Visit.ink ⟨b, x + (width - b.width) / 2, y, pen⟩ := by
  rcases fits.eq_or_lt with rfl | narrow
  · rw [aligned_of_wide (le_refl _), ink_hbox]
    simp [rowVisits, unshifted]
  · rw [aligned_of_narrow narrow, ink_hbox]
    simp only [rowVisits, List.flatMap_cons, List.flatMap_nil, ink_kern, List.nil_append,
      List.append_nil, unshifted, add_zero]
    rfl

end Aligned

end Box

namespace Layout

variable {α : Type} [Turns α] [Field α] [LinearOrder α] [IsStrictOrderedRing α]

/-- How far the bar of a fraction stands below the axis. -/
def barDrop (num den : Box α) : α :=
  num.gain (num.width ⊔ den.width) num.height + num.gain (num.width ⊔ den.width) num.depth

theorem barDrop_nonneg (num den : Box α) : 0 ≤ barDrop num den :=
  add_nonneg (num.gain_nonneg _ _) (num.gain_nonneg _ _)

/-- The bar stands on the axis if the numerator is as wide as the denominator, or if the baseline of
the numerator lies between its two ends. -/
theorem barDrop_eq_zero_iff {num den : Box α} :
    barDrop num den = 0 ↔ den.width ≤ num.width ∨ 0 ≤ num.height ∧ 0 ≤ num.depth := by
  rw [barDrop, add_eq_zero_iff_of_nonneg (num.gain_nonneg _ _) (num.gain_nonneg _ _),
    Box.gain_eq_zero_iff, Box.gain_eq_zero_iff, ← or_and_left, sup_le_iff,
    and_iff_right (le_refl num.width)]

variable (s : Setting α) {num den : Box α} (x y : α)

omit [IsStrictOrderedRing α] in
theorem ink_fraction_eq (pen : Pen α α) :
    Box.Visit.ink ⟨fraction s num den, x, y, pen⟩ =
      Box.Visit.ink ⟨fractionStack s num den, x + delimiterSpace * s.style.factor, y, pen⟩ := by
  have unshifted : (fractionStack s num den).shift = 0 := Scalar.whole_zero
  rw [fraction, Box.ink_hbox]
  simp only [Box.rowVisits, List.flatMap_cons, List.flatMap_nil, Box.ink_kern, List.nil_append,
    List.append_nil, unshifted, add_zero]
  rfl

/-- A fraction draws its numerator, its bar and its denominator, each in the middle of the fraction.
What the numerator gains above moves all of them down, and what it gains below the bar and the
denominator. -/
theorem ink_fraction (above : num.shift = 0) (below : den.shift = 0) (pen : Pen α α) :
    let width := num.width ⊔ den.width
    let left := x + delimiterSpace * s.style.factor
    let axis := Font.axisHeight s.style
    let thickness := Font.ruleThickness s.style
    Box.Visit.ink ⟨fraction s num den, x, y, pen⟩ =
      Box.Visit.ink ⟨num, left + (width - num.width) / 2,
          y - numRaise s num + num.gain width num.height, pen⟩ ++
        ⟨.fillRect ⟨left, y - (axis + thickness / 2) + barDrop num den, width, thickness⟩, pen⟩ ::
          Box.Visit.ink ⟨den, left + (width - den.width) / 2,
            y + denDrop s den + barDrop num den + den.gain width den.height, pen⟩ := by
  intro width left axis thickness
  -- where the parts of the stack begin, one after the other from its top
  have first : y - (numRaise s num + num.height) + (num.height + num.gain width num.height) =
      y - numRaise s num + num.gain width num.height := by ring
  have top : y - numRaise s num + num.gain width num.height + (num.depth + num.gain width num.depth) +
      gapAbove s num (numRaise s num) = y - (axis + thickness / 2) + barDrop num den := by
    rw [gapAbove, barDrop, Scalar.whole_eq]
    ring
  have last : y - (axis + thickness / 2) + barDrop num den + thickness +
      gapBelow s den (denDrop s den) + (den.height + den.gain width den.height) =
        y + denDrop s den + barDrop num den + den.gain width den.height := by
    rw [gapBelow, Scalar.whole_eq]
    ring
  rw [ink_fraction_eq, fractionStack, Box.ink_stack, Scalar.max_eq]
  simp only [Box.stackVisits, List.flatMap_cons, List.flatMap_nil, Box.ink_space, Box.ink_bar,
    List.nil_append, List.append_nil, List.singleton_append, Box.shift_aligned, add_zero,
    Box.ink_aligned above le_sup_left, Box.ink_aligned below le_sup_right, Box.height_aligned above,
    Box.height_aligned below, Box.depth_aligned above, Box.height_space, Box.depth_space,
    Box.shift_bar, Box.height_bar, Box.depth_bar, Scalar.whole_zero, add_sub_cancel_right]
  rw [first, top, last]

end Layout

namespace Atom

open Layout Box

/-- The bar of a fraction keeps the clearance between the depth of the numerator and the height of the
denominator, and stands on the axis, or below it where the numerator is narrower than the denominator
and its height or its depth is negative: by as much as the two are negative. -/
theorem ink_fraction_layout {α : Type} [Turns α] [Field α] [LinearOrder α] [IsStrictOrderedRing α]
    (num den : Atom α) (s : Setting α) (x y : α) (pen : Pen α α) :
    let n := (num.layout s.num).box
    let d := (den.layout s.denom).box
    let width := n.width ⊔ d.width
    let low := barDrop n d
    let left := x + delimiterSpace * s.style.factor
    let top := y - (Font.axisHeight s.style + Font.ruleThickness s.style / 2) + low
    let bottom := y - (Font.axisHeight s.style - Font.ruleThickness s.style / 2) + low
    let above : Visit α α :=
      ⟨n, left + (width - n.width) / 2, y - numRaise s n + n.gain width n.height, pen⟩
    let below : Visit α α :=
      ⟨d, left + (width - d.width) / 2, y + denDrop s d + low + d.gain width d.height, pen⟩
    Visit.ink ⟨((fraction num den).layout s).box, x, y, pen⟩ =
        above.ink ++ ⟨.fillRect ⟨left, top, width, bottom - top⟩, pen⟩ :: below.ink ∧
      clearance s ≤ top - (above.y + n.depth) ∧
      clearance s ≤ below.y - d.height - bottom ∧
      0 ≤ low ∧ (low = 0 ↔ d.width ≤ n.width ∨ 0 ≤ n.height ∧ 0 ≤ n.depth) := by
  intro n d width low left top bottom above below
  have thick : bottom - top = Font.ruleThickness s.style := by
    simp only [bottom, top]
    ring
  have unshifted (a : Atom α) (s : Setting α) : (a.layout s).box.shift = 0 :=
    (a.shift_layout s).trans Scalar.whole_zero
  refine ⟨?_, ?_, ?_, ?_, ?_⟩
  · rw [thick]
    exact Layout.ink_fraction s x y (unshifted num s.num) (unshifted den s.denom) pen
  · calc clearance s
        ≤ gapAbove s n (numRaise s n) := clearance_le_gapAbove s n
      _ ≤ gapAbove s n (numRaise s n) + n.gain width n.depth :=
        le_add_of_nonneg_right (n.gain_nonneg width n.depth)
      _ = top - (above.y + n.depth) := by
        simp only [gapAbove, top, low, above, barDrop, Scalar.whole_eq, width]
        ring
  · calc clearance s
        ≤ gapBelow s d (denDrop s d) := clearance_le_gapBelow s d
      _ ≤ gapBelow s d (denDrop s d) + d.gain width d.height :=
        le_add_of_nonneg_right (d.gain_nonneg width d.height)
      _ = below.y - d.height - bottom := by
        simp only [gapBelow, bottom, below, Scalar.whole_eq]
        ring
  · exact barDrop_nonneg n d
  · exact barDrop_eq_zero_iff

/-- Content that is centered on the axis ends above the baseline. Over a wider denominator it makes
the bar stand below the axis by as much. -/
theorem ink_fraction_layout_centered :
    let _ : Turns ℚ := ⟨fun _ => (0, 1), 0⟩
    let s : Setting ℚ := { style := .display, font := { size := 20 }, pixelsPerPoint := 1 }
    let num : Atom ℚ := .vCentered (.char 'x')
    let den : Atom ℚ := .row [.char 'x', .char 'x']
    let pen : Pen ℚ ℚ := Recording.blank.pen
    (num.layout s.num).box.depth = -69 / 2000 ∧
      ⟨.fillRect ⟨3 / 25, 0 - (Font.axisHeight s.style + Font.ruleThickness s.style / 2) + 69 / 2000,
          11 / 10, Font.ruleThickness s.style⟩, pen⟩ ∈
        Visit.ink ⟨((fraction num den).layout s).box, 0, 0, pen⟩ := by
  intro turns s num den pen
  obtain ⟨drawn, -⟩ := ink_fraction_layout num den s 0 0 pen
  refine ⟨by decide +kernel, ?_⟩
  rw [drawn]
  refine List.mem_append_right _ (List.mem_cons.mpr (.inl ?_))
  congr 2
  decide +kernel

/-- Over a wider denominator, the bar under content that ends above the baseline is not painted on the
axis. -/
theorem not_ink_fraction_layout :
    let _ : Turns ℚ := ⟨fun _ => (0, 1), 0⟩
    ¬∀ (num den : Atom ℚ) (s : Setting ℚ) (x y : ℚ) (pen : Pen ℚ ℚ), ∃ left width,
      ⟨.fillRect ⟨left, y - (Font.axisHeight s.style + Font.ruleThickness s.style / 2), width,
          Font.ruleThickness s.style⟩, pen⟩ ∈
        Visit.ink ⟨((fraction num den).layout s).box, x, y, pen⟩ := by
  intro turns claim
  let s : Setting ℚ := { style := .display, font := { size := 20 }, pixelsPerPoint := 1 }
  let pen : Pen ℚ ℚ := Recording.blank.pen
  obtain ⟨left, width, drawn⟩ :=
    claim (.vCentered (.char 'x')) (.row [.char 'x', .char 'x']) s 0 0 pen
  have elsewhere : ∀ c ∈ Visit.ink ⟨((fraction (.vCentered (.char 'x'))
      (.row [.char 'x', .char 'x'])).layout s).box, 0, 0, pen⟩,
      c.shape.rect.y ≠ 0 - (Font.axisHeight s.style + Font.ruleThickness s.style / 2) := by
    decide +kernel
  exact elsewhere _ drawn rfl

end Atom

end FormulaInk
