import Mathlib
import FormulaInk.Proofs.Ink.Cover
import FormulaInk.Proofs.Lines.Partition

/-! Boxes around a base: colored, framed, circled, turned, stretched, set in a width, or broken into
lines. Each of them keeps what it draws if its base does. -/

namespace FormulaInk.Box

variable {α : Type} [Turns α] [Field α] [LinearOrder α]

/-! ### Other shifts and colors -/

/-- The box with another shift and other colors. -/
def restyle (b : Box α) (shift : α) (foreground background : Option Color) : Box α :=
  b.withOutline { b.outline with shift, foreground, background }

/-- Where a row is painted depends on the pen only through its transform. -/
theorem map_region_rowVisits {pen other : Pen α α} (same : pen.transform = other.transform)
    (children : List (Box α)) (x y : α) :
    (rowVisits pen children x y).map Visit.region =
      (rowVisits other children x y).map Visit.region := by
  induction children generalizing x with
  | nil => rfl
  | cons c rest ih =>
    rw [rowVisits, rowVisits, List.map_cons, List.map_cons, ih, Visit.region, Visit.region, same]

theorem map_region_stackVisits {pen other : Pen α α} (same : pen.transform = other.transform)
    (children : List (Box α)) (x y : α) :
    (stackVisits pen children x y).map Visit.region =
      (stackVisits other children x y).map Visit.region := by
  induction children generalizing y with
  | nil => rfl
  | cons c rest ih =>
    rw [stackVisits, stackVisits, List.map_cons, List.map_cons, ih, Visit.region, Visit.region, same]

section Restyled

variable {b : Box α} (shift : α) (foreground background : Option Color)

theorem area_restyle (x y : α) :
    area (b.restyle shift foreground background).outline x y = area b.outline x y := by
  rw [restyle, outline_withOutline]
  rfl

theorem ownShapes_restyle (x y : α) :
    (b.restyle shift foreground background).ownShapes x y = b.ownShapes x y := by
  cases b <;> rfl

theorem map_region_inner_restyle (x y : α) (pen : Pen α α) :
    (Visit.inner ⟨b.restyle shift foreground background, x, y, pen⟩).map Visit.region =
      (Visit.inner ⟨b, x, y, pen⟩).map Visit.region := by
  cases b with
  | horizontal o children breaks =>
    apply map_region_rowVisits
    rfl
  | vertical o children =>
    apply map_region_stackVisits
    rfl
  | _ => rfl

theorem keepsParts_restyle (parts : b.KeepsParts) :
    (b.restyle shift foreground background).KeepsParts := by
  rintro ⟨c, x, y, pen⟩ same w visited
  obtain rfl : c = b.restyle shift foreground background := same
  have place := List.mem_map_of_mem (f := Visit.region) visited
  rw [map_region_inner_restyle] at place
  obtain ⟨u, inside, region⟩ := List.mem_map.mp place
  have own : Visit.region ⟨b.restyle shift foreground background, x, y, pen⟩ =
      Visit.region ⟨b, x, y, pen⟩ := by
    rw [Visit.region, area_restyle]
    rfl
  rw [← region, own]
  exact parts ⟨b, x, y, pen⟩ rfl u inside

variable [IsStrictOrderedRing α]

theorem Snug.restyle (h : b.Snug) : (b.restyle shift foreground background).Snug := by
  have tidy := h.tidy
  rw [visits_eq, List.forall_mem_cons] at tidy
  have sized : (b.restyle shift foreground background).outline =
      { b.outline with shift, foreground, background } := outline_withOutline ..
  have wide : 0 ≤ (b.restyle shift foreground background).outline.width := by
    rw [sized]
    exact h.width
  have high : 0 ≤ (b.restyle shift foreground background).outline.height +
      (b.restyle shift foreground background).outline.depth := by
    rw [sized]
    exact h.total
  have parts := keepsParts_restyle shift foreground background tidy.1.parts
  refine ⟨wide, high, tidy_visits ⟨parts, fun firm => ?_⟩ ?_⟩
  · intro x y shape mem
    rcases List.mem_append.mp mem with filled | own
    · obtain ⟨color, _, rfl⟩ := List.mem_map.mp filled
      exact area_corners wide high x y
    · rw [ownShapes_restyle] at own
      rw [Box.restyle, char?_withOutline] at firm
      rw [area_restyle]
      exact tidy.1.ink firm x y shape (List.mem_append_right _ own)
  · rw [Box.restyle, contents_withOutline]
    intro c hc d hd
    exact tidy.2 d (List.mem_flatMap.mpr ⟨c, hc, hd⟩)

theorem Snug.withShift (h : b.Snug) : (b.withShift shift).Snug :=
  h.restyle shift b.foreground b.background

theorem Snug.withColors (h : b.Snug) : (b.withColors foreground background).Snug :=
  h.restyle b.shift foreground background

theorem Snug.colored (h : b.Snug) : (b.colored foreground background).Snug :=
  h.withColors ..

end Restyled

variable [IsStrictOrderedRing α]

/-! ### Frames -/

omit [IsStrictOrderedRing α] in
/-- A box with one part keeps what it draws if its part does, and if it keeps its part and its ink. -/
theorem Snug.around {b base : Box α} (h : base.Snug) (single : b.contents = [base])
    (wide : 0 ≤ b.width) (high : 0 ≤ b.totalHeight) (parts : b.KeepsParts) (ink : b.KeepsInk) :
    b.Snug := by
  refine ⟨wide, high, tidy_visits ⟨parts, fun _ => ink⟩ ?_⟩
  rw [single, List.forall_mem_singleton]
  exact h.tidy

/-- The middle of a frame lies in the outline if the frame is not thicker than that. -/
theorem corners_frameArea {o : Outline α} {thickness : α} (thick : 0 ≤ thickness)
    (wide : thickness ≤ o.width) (high : thickness ≤ o.height + o.depth) (x y : α) :
    ∀ p ∈ (frameArea o thickness x y).corners, p ∈ (area o x y).points := by
  apply Rect.corners_inside
  all_goals
    simp only [frameArea, area, Rect.right, Rect.bottom, Scalar.whole_eq, Nat.cast_ofNat]
    linarith

section Frames

variable {base : Box α} {thickness space : α}

theorem Snug.padded (h : base.Snug) (thick : 0 ≤ thickness) (apart : 0 ≤ space) {b : Box α}
    (sized : b.outline = padded base (thickness + space)) (single : b.contents = [base])
    (parts : b.KeepsParts)
    (drawn : ∀ x y, ∀ shape ∈ b.ownShapes x y, shape.rect = frameArea b.outline thickness x y) :
    b.Snug := by
  have width : b.width = base.width + 2 * (thickness + space) := by
    rw [Box.width, sized]
    rfl
  have total : b.totalHeight = base.totalHeight + 2 * (thickness + space) := by
    have height : b.totalHeight =
        base.height + (thickness + space) + (base.depth + (thickness + space)) := by
      rw [totalHeight, Box.height, Box.depth, sized]
      rfl
    rw [height, totalHeight]
    ring
  have wide : thickness ≤ b.width := by linarith [h.width]
  have high : thickness ≤ b.totalHeight := by linarith [h.total]
  apply h.around single
  · exact thick.trans wide
  · exact thick.trans high
  · exact parts
  · apply keepsInk_of_shapes
    · rw [background, sized]
      rfl
    · intro x y shape mem
      rw [drawn x y shape mem]
      exact corners_frameArea thick wide high x y

theorem Snug.frame (h : base.Snug) (thick : 0 ≤ thickness) (apart : 0 ≤ space) :
    (base.frame thickness space).Snug := by
  apply h.padded thick apart rfl rfl (keepsParts_frame thick apart)
  intro x y shape mem
  obtain rfl := List.mem_singleton.mp mem
  rfl

theorem Snug.ovalFrame (h : base.Snug) (thick : 0 ≤ thickness) (apart : 0 ≤ space) :
    (base.ovalFrame thickness space).Snug := by
  apply h.padded thick apart rfl rfl (keepsParts_ovalFrame thick apart)
  intro x y shape mem
  obtain rfl := List.mem_singleton.mp mem
  rfl

theorem Snug.circle (h : base.Snug) (thick : 0 ≤ thickness) (apart : 0 ≤ space) :
    (base.circle thickness space).Snug := by
  have width := width_circle base thickness space
  have total := totalHeight_circle base thickness space
  have across : 0 ≤ base.width ⊔ base.totalHeight := h.width.trans le_sup_left
  have thin : thickness ≤ (base.circle thickness space).width := by linarith
  apply h.around rfl
  · exact thick.trans thin
  · rw [total]
    exact thick.trans thin
  · exact keepsParts_circle thick apart
  · apply keepsInk_of_shapes rfl
    intro x y shape mem
    obtain rfl := List.mem_singleton.mp mem
    exact corners_frameArea thick thin (thin.trans_eq total.symm) x y

end Frames

/-! ### Turns and stretches -/

theorem Snug.rotate {base : Box α} (h : base.Snug) (degrees : α) : (base.rotate degrees).Snug := by
  have parts := keepsParts_rotate base degrees
  obtain ⟨radians, left, right, top, bottom, same, corners⟩ := exists_rotate base degrees
  obtain ⟨⟨leftmost, rightmost⟩, topmost, lowest⟩ := corners (0, -base.height) List.mem_cons_self
  rw [same] at parts ⊢
  apply h.around rfl
  · exact sub_nonneg.mpr (leftmost.trans rightmost)
  · show 0 ≤ -top + bottom
    linarith
  · exact parts
  · exact keepsInk_of_no_shapes rfl fun _ _ => rfl

theorem Snug.scale {base : Box α} (h : base.Snug) (sx sy : α) : (base.scale sx sy).Snug := by
  have parts := keepsParts_scale base sx sy
  obtain ⟨height, depth, same, inside⟩ := exists_scale base sx sy
  obtain ⟨top, bottom⟩ :=
    inside (-base.height) (le_refl _) (neg_le_iff_add_nonneg'.mpr h.total)
  rw [same] at parts ⊢
  apply h.around rfl
  · exact mul_nonneg h.width (abs_nonneg sx)
  · show 0 ≤ height + depth
    linarith
  · exact parts
  · exact keepsInk_of_no_shapes rfl fun _ _ => rfl

/-! ### Set in a width, and broken into lines -/

theorem Stackable.aligned {inner : Box α} (h : inner.Snug) (width : α) (align : Alignment) :
    (inner.aligned width align).Stackable := by
  by_cases narrow : width - inner.width ≤ Scalar.whole 0
  · have same : inner.aligned width align = Box.hbox [inner] := by cases align <;> exact if_pos narrow
    rw [same]
    exact .hbox_single h
  · have wider : 0 < width - inner.width := by rwa [Scalar.whole_zero, not_le] at narrow
    have rest : (Box.kern (width - inner.width)).Snug := .kern wider.le
    have half : (Box.kern ((width - inner.width) / Scalar.whole 2)).Snug :=
      .kern (div_nonneg wider.le (Nat.cast_nonneg 2))
    cases align with
    | left =>
      rw [Box.aligned, if_neg narrow]
      exact .hbox_pair h rest
    | right =>
      rw [Box.aligned, if_neg narrow]
      exact .hbox_pair rest h
    | center =>
      rw [Box.aligned, if_neg narrow]
      exact .hbox_triple half h half

omit [IsStrictOrderedRing α] in
theorem mem_rows {children : List (Box α)} {ranges : List Range} {line : Box α}
    (mem : line ∈ Lines.rows children ranges) :
    ∃ part : List (Box α), line = hbox part ∧ ∀ c ∈ part, c ∈ children := by
  cases ranges with
  | nil => cases mem
  | cons first rest =>
    rcases List.mem_cons.mp mem with rfl | later
    · exact ⟨_, rfl, fun _ hc => Range.mem_of_mem_slice hc⟩
    · obtain ⟨r, _, rfl⟩ := List.mem_map.mp later
      exact ⟨_, rfl, fun _ hc => Range.mem_of_mem_slice ((List.dropWhile_sublist _).mem hc)⟩

omit [IsStrictOrderedRing α] in
theorem mem_withGaps {gap : α} {rows : List (Box α)} {b : Box α}
    (mem : b ∈ Lines.withGaps gap rows) :
    b ∈ rows ∨ b = space (Scalar.whole 0) gap (Scalar.whole 0) := by
  induction rows with
  | nil => exact .inl mem
  | cons first rest ih =>
    cases rest with
    | nil => exact .inl mem
    | cons next rest =>
      rw [Lines.withGaps, List.intersperse_cons_cons, List.mem_cons, List.mem_cons] at mem
      rcases mem with rfl | rfl | later
      · exact .inl List.mem_cons_self
      · exact .inr rfl
      · exact (ih later).imp_left (List.mem_cons_of_mem first)

theorem Snug.lines {interline : α} (apart : 0 ≤ interline) {rows : List (Box α)}
    (all : ∀ line ∈ rows, line.Stackable) : (Lines.stack interline rows).Snug := by
  refine (Stackable.stack ?_ _).snug
  intro b mem
  rcases mem_withGaps mem with line | rfl
  · exact all b line
  · exact .gap apart

/-- A box keeps what it draws when it is broken into lines, if all that it may be broken into does. -/
theorem Snug.split {b : Box α} (h : b.Snug) {width interline : α}
    (parts : b.lines? width ≠ none → ∀ c ∈ b.children, c.Snug) (apart : 0 ≤ interline) :
    (b.split width interline).Snug := by
  rw [Box.split]
  cases broken : b.lines? width with
  | none => exact h
  | some ranges =>
    apply Snug.withColors
    apply Snug.lines apart
    intro line mem
    obtain ⟨part, rfl, inside⟩ := mem_rows mem
    have all := parts (by simp [broken])
    exact .hbox fun c hc => all c (inside c hc)

end FormulaInk.Box
