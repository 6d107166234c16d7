import Mathlib
import FormulaInk.Proofs.Ink.Snug

/-! What boxes around a base cover. A framed, circled, turned or stretched box reports an extent in
which its base is painted, also where the base is turned around or out of the vertical. -/

namespace FormulaInk.Box

variable {α : Type} [Turns α] [Field α] [LinearOrder α]

/-! ### Frames -/

section Frames

theorem width_circle (base : Box α) (thickness space : α) :
    (base.circle thickness space).width =
      (base.width ⊔ base.totalHeight) + 2 * (space + thickness) := by
  show Scalar.max _ _ + Scalar.whole 2 * _ = _
  rw [Scalar.max_eq, Scalar.whole_eq, Nat.cast_ofNat]
  rfl

theorem totalHeight_circle [IsStrictOrderedRing α] (base : Box α) (thickness space : α) :
    (base.circle thickness space).totalHeight = (base.circle thickness space).width := by
  have height : (base.circle thickness space).height =
    (base.height - base.depth) / 2 + (base.circle thickness space).width / 2 := rfl
  have depth : (base.circle thickness space).depth =
    (base.circle thickness space).width / 2 - (base.height - base.depth) / 2 := rfl
  rw [totalHeight, height, depth]
  ring

variable [IsStrictOrderedRing α] {base : Box α} {thickness space : α}

/-- A frame keeps a base that stands behind its left edge by the space that it adds. -/
theorem keepsParts_padded (thick : 0 ≤ thickness) (apart : 0 ≤ space) {b : Box α}
    (sized : b.outline = padded base (thickness + space))
    (parts : ∀ v : Visit α α, v.box = b → ∀ w ∈ v.inner, w.box = base ∧
      w.pen.transform = v.pen.transform ∧ w.x = v.x + thickness + space ∧ w.y = v.y) :
    b.KeepsParts := by
  have width : b.width = base.width + 2 * (thickness + space) := by
    rw [Box.width, sized]
    rfl
  have height : b.height = base.height + (thickness + space) := by
    rw [Box.height, sized]
    rfl
  have depth : b.depth = base.depth + (thickness + space) := by
    rw [Box.depth, sized]
    rfl
  intro v same w visited
  obtain ⟨rfl, transform, left, base⟩ := parts v same w visited
  subst same
  apply Visit.region_subset_of_edges transform
  all_goals linarith

theorem keepsParts_frame (thick : 0 ≤ thickness) (apart : 0 ≤ space) :
    (base.frame thickness space).KeepsParts := by
  apply keepsParts_padded thick apart rfl
  rintro ⟨b, x, y, pen⟩ rfl w visited
  obtain rfl := List.mem_singleton.mp visited
  exact ⟨rfl, rfl, rfl, rfl⟩

theorem keepsParts_ovalFrame (thick : 0 ≤ thickness) (apart : 0 ≤ space) :
    (base.ovalFrame thickness space).KeepsParts := by
  apply keepsParts_padded thick apart rfl
  rintro ⟨b, x, y, pen⟩ rfl w visited
  obtain rfl := List.mem_singleton.mp visited
  exact ⟨rfl, rfl, rfl, rfl⟩

theorem keepsParts_circle (thick : 0 ≤ thickness) (apart : 0 ≤ space) :
    (base.circle thickness space).KeepsParts := by
  have width := width_circle base thickness space
  have across : base.width ≤ base.width ⊔ base.totalHeight := le_sup_left
  have down : base.height + base.depth ≤ base.width ⊔ base.totalHeight := le_sup_right
  have height : (base.circle thickness space).height =
    (base.height - base.depth) / 2 + (base.circle thickness space).width / 2 := rfl
  have depth : (base.circle thickness space).depth =
    (base.circle thickness space).width / 2 - (base.height - base.depth) / 2 := rfl
  rintro ⟨b, x, y, pen⟩ same w visited
  obtain rfl : b = base.circle thickness space := same
  obtain rfl := List.mem_singleton.mp visited
  apply Visit.region_subset_of_edges
  · rfl
  · show x ≤ x + ((base.circle thickness space).width - base.width) / 2
    linarith
  · show x + ((base.circle thickness space).width - base.width) / 2 + base.width ≤
      x + (base.circle thickness space).width
    linarith
  · show y - (base.circle thickness space).height ≤ y - base.height
    linarith
  · show y + base.depth ≤ y + (base.circle thickness space).depth
    linarith

end Frames

/-! ### Turns -/

section Turned

/-- A turned box reaches as far as the turned corners of its base. -/
theorem exists_rotate (base : Box α) (degrees : α) :
    ∃ radians left right top bottom : α,
      base.rotate degrees = rotated (plain (right - left) (-top) bottom) radians (-left) base ∧
      ∀ p ∈ [(0, -base.height), (base.width, -base.height), (0, base.depth),
          (base.width, base.depth)],
        let turned := turn (Scalar.sinCos radians).1 (Scalar.sinCos radians).2 p
        (left ≤ turned.1 ∧ turned.1 ≤ right) ∧ top ≤ turned.2 ∧ turned.2 ≤ bottom := by
  refine ⟨_, _, _, _, _, rfl, ?_⟩
  intro p mem
  rw [Scalar.whole_zero]
  have corner {f : α × α → α} {g : α × α → α × α} :
      f (g p) ∈ f (g (0, -base.height)) ::
        ([(base.width, -base.height), (0, base.depth), (base.width, base.depth)].map g).map f := by
    rw [List.map_map]
    exact List.mem_map_of_mem (f := f ∘ g) mem
  exact ⟨⟨Scalar.least_le corner, Scalar.le_greatest corner⟩, Scalar.least_le corner,
    Scalar.le_greatest corner⟩

variable [IsStrictOrderedRing α]

/-- What bounds a linear function on the corners of a rectangle bounds it on the rectangle. -/
theorem le_of_corners {a b least w low high : α} {g : α × α → α}
    (linear : ∀ p, g p = a * p.1 + b * p.2)
    (corners : ∀ p ∈ [(0, low), (w, low), (0, high), (w, high)], least ≤ g p) {p : α × α}
    (left : 0 ≤ p.1) (right : p.1 ≤ w) (above : low ≤ p.2) (below : p.2 ≤ high) : least ≤ g p := by
  simp only [linear, List.mem_cons, List.not_mem_nil, or_false, forall_eq_or_imp, forall_eq] at corners ⊢
  obtain ⟨h₁, h₂, h₃, h₄⟩ := corners
  have across : a * 0 ≤ a * p.1 ∨ a * w ≤ a * p.1 := by
    rcases le_total 0 a with up | down
    · exact .inl (mul_le_mul_of_nonneg_left left up)
    · exact .inr (mul_le_mul_of_nonpos_left right down)
  have upright : b * low ≤ b * p.2 ∨ b * high ≤ b * p.2 := by
    rcases le_total 0 b with up | down
    · exact .inl (mul_le_mul_of_nonneg_left above up)
    · exact .inr (mul_le_mul_of_nonpos_left below down)
  rcases across with h | h <;> rcases upright with k | k <;> linarith

theorem corners_le {a b greatest w low high : α} {g : α × α → α}
    (linear : ∀ p, g p = a * p.1 + b * p.2)
    (corners : ∀ p ∈ [(0, low), (w, low), (0, high), (w, high)], g p ≤ greatest) {p : α × α}
    (left : 0 ≤ p.1) (right : p.1 ≤ w) (above : low ≤ p.2) (below : p.2 ≤ high) :
    g p ≤ greatest := by
  have negated : -greatest ≤ -g p := by
    apply le_of_corners (a := -a) (b := -b) (g := fun p => -g p) _ _ left right above below
    · intro p
      rw [linear]
      ring
    · intro p mem
      exact neg_le_neg (corners p mem)
  exact neg_le_neg_iff.mp negated

theorem keepsParts_rotate (base : Box α) (degrees : α) : (base.rotate degrees).KeepsParts := by
  obtain ⟨radians, left, right, top, bottom, same, corners⟩ := exists_rotate base degrees
  rw [same]
  generalize sine : (Scalar.sinCos radians).1 = s at corners
  generalize cosine : (Scalar.sinCos radians).2 = c at corners
  have within {p : α × α} (h₁ : 0 ≤ p.1) (h₂ : p.1 ≤ base.width) (h₃ : -base.height ≤ p.2)
      (h₄ : p.2 ≤ base.depth) : (left ≤ (turn s c p).1 ∧ (turn s c p).1 ≤ right) ∧
        top ≤ (turn s c p).2 ∧ (turn s c p).2 ≤ bottom := by
    have across (p : α × α) : (turn s c p).1 = c * p.1 + -s * p.2 := by
      simp only [turn]
      ring
    have down (p : α × α) : (turn s c p).2 = s * p.1 + c * p.2 := by
      simp only [turn]
      ring
    refine ⟨⟨?_, ?_⟩, ?_, ?_⟩
    · exact le_of_corners across (fun q mem => (corners q mem).1.1) h₁ h₂ h₃ h₄
    · exact corners_le across (fun q mem => (corners q mem).1.2) h₁ h₂ h₃ h₄
    · exact le_of_corners down (fun q mem => (corners q mem).2.1) h₁ h₂ h₃ h₄
    · exact corners_le down (fun q mem => (corners q mem).2.2) h₁ h₂ h₃ h₄
  rintro ⟨b, x, y, pen⟩ rfl w visited
  obtain rfl := List.mem_singleton.mp visited
  -- the base turns around its own reference point, where its corners are as in `exists_rotate`
  apply Visit.region_subset fun p =>
    let q := turn s c (p.1 - (x + -left), p.2 - y)
    (q.1 + (x + -left), q.2 + y)
  · intro p
    have turned := pen.transform.apply_rotateAbout radians (x + -left) y p
    rw [sine, cosine] at turned
    exact turned
  · intro p mem
    obtain ⟨h₁, h₂, h₃, h₄⟩ := mem_area.mp mem
    obtain ⟨⟨k₁, k₂⟩, k₃, k₄⟩ := within (p := (p.1 - (x + -left), p.2 - y)) (sub_nonneg.mpr h₁)
      (sub_le_iff_le_add'.mpr h₂) (neg_le_sub_iff_le_add.mpr (sub_le_iff_le_add.mp h₃))
      (sub_le_iff_le_add'.mpr h₄)
    refine mem_area.mpr ⟨?_, ?_, ?_, ?_⟩
    · show x ≤ (turn s c _).1 + (x + -left)
      linarith
    · show (turn s c _).1 + (x + -left) ≤ x + (right - left)
      linarith
    · show y - -top ≤ (turn s c _).2 + y
      linarith
    · show (turn s c _).2 + y ≤ y + bottom
      linarith

end Turned

/-! ### Stretches -/

section Stretched

variable [IsStrictOrderedRing α]

/-- A stretched box reports a range that covers what its base covers up and down, stretched. -/
theorem exists_scale (base : Box α) (sx sy : α) :
    ∃ height depth : α,
      base.scale sx sy = scaled (plain (base.width * |sx|) height depth) sx sy base ∧
      ∀ t, -base.height ≤ t → t ≤ base.depth → -height ≤ sy * t ∧ sy * t ≤ depth := by
  rw [Box.scale, Scalar.abs_eq]
  split
  · next up =>
    rw [Scalar.whole_zero] at up
    refine ⟨_, _, rfl, fun t above below => ⟨?_, ?_⟩⟩
    · linarith [mul_le_mul_of_nonneg_left above up]
    · linarith [mul_le_mul_of_nonneg_left below up]
  · next down =>
    rw [Scalar.whole_zero, not_le] at down
    refine ⟨_, _, rfl, fun t above below => ⟨?_, ?_⟩⟩
    · linarith [mul_le_mul_of_nonpos_left below down.le]
    · linarith [mul_le_mul_of_nonpos_left above down.le]

theorem keepsParts_scale (base : Box α) (sx sy : α) : (base.scale sx sy).KeepsParts := by
  obtain ⟨height, depth, same, inside⟩ := exists_scale base sx sy
  rw [same]
  rintro ⟨b, x, y, pen⟩ rfl w visited
  obtain rfl := List.mem_singleton.mp visited
  apply Visit.region_subset fun p =>
    (sx * p.1 + (x + if sx < Scalar.whole 0 then base.width * |sx| else Scalar.whole 0),
      sy * p.2 + y)
  · intro p
    show Transform.apply (Transform.scale (pen.transform.translate _ _) sx sy) p = _
    rw [Transform.apply_scale, Transform.apply_translate]
    rfl
  · intro p mem
    simp only [mem_area, Scalar.whole_zero, zero_add, zero_sub] at mem
    obtain ⟨h₁, h₂, h₃, h₄⟩ : 0 ≤ p.1 ∧ p.1 ≤ base.width ∧ _ := mem
    obtain ⟨k₃, k₄⟩ := inside p.2 h₃ h₄
    simp only [mem_area, outline, plain, Scalar.whole_zero]
    -- a base that is mirrored is drawn to the left, from the right edge of the box
    split
    · next back =>
      have first := mul_le_mul_of_nonpos_left h₁ back.le
      have last := mul_le_mul_of_nonpos_left h₂ back.le
      rw [abs_of_neg back]
      refine ⟨?_, ?_, ?_, ?_⟩ <;> linarith
    · next forth =>
      rw [not_lt] at forth
      have first := mul_le_mul_of_nonneg_left h₁ forth
      have last := mul_le_mul_of_nonneg_left h₂ forth
      rw [abs_of_nonneg forth]
      refine ⟨?_, ?_, ?_, ?_⟩ <;> linarith

end Stretched

/-! ### All of them -/

/-- The boxes with ink or a change of user space around one base. -/
def wrappers (base : Box α) (thickness space degrees sx sy : α) : List (Box α) :=
  [base.frame thickness space, base.ovalFrame thickness space, base.circle thickness space,
    base.rotate degrees, base.scale sx sy]

/-- A box around a base paints the base once, and the rectangle of the base is taken into the
rectangle that the box reports, through whatever moves, turns or stretches the base. -/
theorem region_base_subset [IsStrictOrderedRing α] (base : Box α) {thickness space : α}
    (thick : 0 ≤ thickness) (apart : 0 ≤ space) (degrees sx sy x y : α) (pen : Pen α α) :
    ∀ b ∈ base.wrappers thickness space degrees sx sy,
      ∃ w : Visit α α, Visit.inner ⟨b, x, y, pen⟩ = [w] ∧ w.box = base ∧
        Visit.ink ⟨b, x, y, pen⟩ = Visit.commands ⟨b, x, y, pen⟩ ++ w.ink ∧
        w.region ⊆ Visit.region ⟨b, x, y, pen⟩ := by
  have around {b : Box α} (single : b.contents = [base]) (parts : b.KeepsParts) :
      ∃ w : Visit α α, Visit.inner ⟨b, x, y, pen⟩ = [w] ∧ w.box = base ∧
        Visit.ink ⟨b, x, y, pen⟩ = Visit.commands ⟨b, x, y, pen⟩ ++ w.ink ∧
        w.region ⊆ Visit.region ⟨b, x, y, pen⟩ := by
    have boxes := Visit.map_box_inner ⟨b, x, y, pen⟩
    obtain ⟨w, only, same⟩ := List.map_eq_singleton_iff.mp (boxes.trans single)
    have drawn := Visit.ink_eq ⟨b, x, y, pen⟩
    rw [only, List.flatMap_singleton] at drawn
    refine ⟨w, only, same, drawn, parts ⟨b, x, y, pen⟩ rfl w ?_⟩
    rw [only]
    exact List.mem_cons_self
  simp only [wrappers, List.forall_mem_cons]
  refine ⟨around rfl ?_, around rfl ?_, around rfl ?_, around rfl ?_, around ?_ ?_, by simp⟩
  · exact keepsParts_frame thick apart
  · exact keepsParts_ovalFrame thick apart
  · exact keepsParts_circle thick apart
  · exact keepsParts_rotate base degrees
  · rw [Box.scale]
    split <;> rfl
  · exact keepsParts_scale base sx sy

/-- A letter turned into a slope, and mirrored in both directions. -/
theorem region_base_subset_letter :
    let _ : Turns ℚ := ⟨fun _ => (4 / 5, 3 / 5), 0⟩
    let letter : Box ℚ := .ofChar 'x' (1 / 2) (3 / 4) (1 / 4) (1 / 25)
    let pen : Pen ℚ ℚ := Recording.blank.pen
    (0 : ℚ) ≤ 1 / 25 ∧ (0 : ℚ) ≤ 1 / 10 ∧
      ∀ b ∈ letter.wrappers (1 / 25) (1 / 10) 53 (-2) (-1 / 2),
        ∃ w : Visit ℚ ℚ, Visit.inner ⟨b, 3, 2, pen⟩ = [w] ∧ w.box = letter ∧
          Visit.ink ⟨b, 3, 2, pen⟩ = Visit.commands ⟨b, 3, 2, pen⟩ ++ w.ink ∧
          w.region ⊆ Visit.region ⟨b, 3, 2, pen⟩ := by
  intro turns letter pen
  have thick : (0 : ℚ) ≤ 1 / 25 := by norm_num
  have apart : (0 : ℚ) ≤ 1 / 10 := by norm_num
  exact ⟨thick, apart, region_base_subset letter thick apart 53 (-2) (-1 / 2) 3 2 pen⟩

end FormulaInk.Box
