import Mathlib
import FormulaInk.Proofs.Ink.Extent

/-! Boxes that keep what they draw. The extent that such a box reports is not negative and has room
for its parts and for its own shapes. Simple boxes and glyphs keep what they draw, and so do rows and
stacks of boxes that do. -/

namespace FormulaInk

variable {α : Type} [Turns α] [Field α] [LinearOrder α]

theorem Rect.corners_inside {r s : Rect α} (left : r.x ≤ s.x) (wide : s.x ≤ s.right)
    (right : s.right ≤ r.right) (top : r.y ≤ s.y) (high : s.y ≤ s.bottom)
    (bottom : s.bottom ≤ r.bottom) : ∀ p ∈ s.corners, p ∈ r.points := by
  intro p corner
  simp only [corners, List.mem_cons, List.not_mem_nil, or_false] at corner
  rcases corner with rfl | rfl | rfl | rfl
  · exact ⟨left, wide.trans right, top, high.trans bottom⟩
  · exact ⟨left.trans wide, right, top, high.trans bottom⟩
  · exact ⟨left, wide.trans right, top.trans high, bottom⟩
  · exact ⟨left.trans wide, right, top.trans high, bottom⟩

namespace Box

theorem mem_area {o : Outline α} {x y : α} {p : α × α} :
    p ∈ (area o x y).points ↔
      x ≤ p.1 ∧ p.1 ≤ x + o.width ∧ y - o.height ≤ p.2 ∧ p.2 ≤ y + o.depth := by
  have bottom : y - o.height + (o.height + o.depth) = y + o.depth := by ring
  show x ≤ p.1 ∧ p.1 ≤ x + o.width ∧ y - o.height ≤ p.2 ∧
    p.2 ≤ y - o.height + (o.height + o.depth) ↔ _
  rw [bottom]

/-- The characters whose glyphs may be drawn out of their own rectangle: the dot of a comma is larger
than the comma is high, and the arms of a plus sign may be longer than it is. -/
def loose : List Char := [',', '+', '±']

/-- A box that keeps its parts, and its ink unless it is the glyph of a loose character. -/
structure Tidy (b : Box α) : Prop where
  parts : b.KeepsParts
  ink : (∀ ch ∈ b.char?, ch ∉ loose) → b.KeepsInk

/-- A box whose extent is not negative, with tidy boxes only in it. -/
structure Snug (b : Box α) : Prop where
  width : 0 ≤ b.width
  total : 0 ≤ b.totalHeight
  tidy : ∀ c ∈ b.visits, c.Tidy

/-- A box that keeps what it draws, and in a stack does not stand out on the left. -/
structure Stackable (b : Box α) : Prop where
  snug : b.Snug
  shift : 0 ≤ b.shift

theorem tidy_visits {b : Box α} (own : b.Tidy) (inside : ∀ c ∈ b.contents, ∀ d ∈ c.visits, d.Tidy) :
    ∀ c ∈ b.visits, c.Tidy := by
  rw [visits_eq, List.forall_mem_cons]
  refine ⟨own, fun d mem => ?_⟩
  obtain ⟨c, hc, hd⟩ := List.mem_flatMap.mp mem
  exact inside c hc d hd

/-- A visit is in the region of another if its points are taken there on the way to the device. -/
theorem Visit.region_subset {v w : Visit α α} (f : α × α → α × α)
    (way : ∀ p, w.pen.transform.apply p = v.pen.transform.apply (f p))
    (maps : ∀ p ∈ (area w.box.outline w.x w.y).points, f p ∈ (area v.box.outline v.x v.y).points) :
    w.region ⊆ v.region := by
  rintro _ ⟨p, hp, rfl⟩
  exact ⟨f p, maps p hp, (way p).symm⟩

/-- A part under the same transform is in the region of a box if its rectangle is in the box's. -/
theorem Visit.region_subset_of_edges {v w : Visit α α} (same : w.pen.transform = v.pen.transform)
    (left : v.x ≤ w.x) (right : w.x + w.box.width ≤ v.x + v.box.width)
    (top : v.y - v.box.height ≤ w.y - w.box.height)
    (bottom : w.y + w.box.depth ≤ v.y + v.box.depth) : w.region ⊆ v.region := by
  apply region_subset id
  · intro p
    rw [same]
    rfl
  · intro p hp
    obtain ⟨h₁, h₂, h₃, h₄⟩ := mem_area.mp hp
    exact mem_area.mpr ⟨left.trans h₁, h₂.trans right, top.trans h₃, h₄.trans bottom⟩

theorem keepsInk_of_shapes {b : Box α} (plain : b.background = none)
    (own : ∀ x y, ∀ shape ∈ b.ownShapes x y, ∀ p ∈ shape.rect.corners,
      p ∈ (area b.outline x y).points) : b.KeepsInk := by
  intro x y shape mem
  rw [shapes, plain] at mem
  exact own x y shape mem

/-- A row or a stack has no shapes of its own. -/
theorem keepsInk_of_no_shapes {b : Box α} (plain : b.background = none)
    (none : ∀ x y, b.ownShapes x y = []) : b.KeepsInk := by
  apply keepsInk_of_shapes plain
  intro x y shape mem
  rw [none x y] at mem
  cases mem

theorem keepsParts_of_contents {b : Box α} (none : b.contents = []) : b.KeepsParts := by
  intro v same w visited
  have content := List.mem_map_of_mem (f := Visit.box) visited
  rw [v.map_box_inner, same, none] at content
  cases content

/-- A box without parts is tidy if it keeps its ink. -/
theorem tidy_visits_of_contents {b : Box α} (none : b.contents = [])
    (ink : (∀ ch ∈ b.char?, ch ∉ loose) → b.KeepsInk) : ∀ c ∈ b.visits, c.Tidy := by
  apply tidy_visits ⟨keepsParts_of_contents none, ink⟩
  rw [none]
  exact List.forall_mem_nil _

/-! ### Simple boxes -/

/-- Space draws nothing, also where its width is negative. -/
theorem tidy_space (width height depth : α) : ∀ c ∈ (space width height depth).visits, c.Tidy :=
  tidy_visits_of_contents rfl fun _ => keepsInk_of_no_shapes rfl fun _ _ => rfl

theorem Snug.space {width height depth : α} (wide : 0 ≤ width) (high : 0 ≤ height + depth) :
    (space width height depth).Snug :=
  ⟨wide, high, tidy_space width height depth⟩

theorem Snug.kern {width : α} (wide : 0 ≤ width) : (kern width).Snug := .space wide (by simp)

theorem Stackable.gap {gap : α} (apart : 0 ≤ gap) :
    (Box.space (Scalar.whole 0) gap (Scalar.whole 0)).Stackable :=
  ⟨.space (by simp) (by simpa using apart), Scalar.whole_zero.ge⟩

theorem Snug.nothing : (nothing : Box α).Snug := .kern (by simp)

variable [IsStrictOrderedRing α]

theorem area_corners {o : Outline α} (wide : 0 ≤ o.width) (high : 0 ≤ o.height + o.depth) (x y : α) :
    ∀ p ∈ (area o x y).corners, p ∈ (area o x y).points := by
  apply Rect.corners_inside (le_refl _) _ (le_refl _) (le_refl _) _ (le_refl _)
  · exact le_add_of_nonneg_right wide
  · exact le_add_of_nonneg_right high

theorem Snug.bar {width height depth : α} (wide : 0 ≤ width) (high : 0 ≤ height + depth) :
    (bar width height depth).Snug := by
  refine ⟨wide, high, tidy_visits_of_contents rfl fun _ => keepsInk_of_shapes rfl ?_⟩
  intro x y shape mem
  obtain rfl := List.mem_singleton.mp mem
  exact area_corners wide high x y

/-- A line lies where its ends are. -/
theorem corners_line {x₁ y₁ x₂ y₂ : α} {r : Rect α} (first : (x₁, y₁) ∈ r.points)
    (second : (x₂, y₂) ∈ r.points) :
    ∀ p ∈ (Shape.line x₁ y₁ x₂ y₂).rect.corners, p ∈ r.points := by
  have far (a b : α) : a ⊓ b + |b - a| = a ⊔ b := by
    rcases le_total a b with h | h
    · rw [inf_eq_left.mpr h, sup_eq_right.mpr h, abs_of_nonneg (sub_nonneg.mpr h)]
      ring
    · rw [inf_eq_right.mpr h, sup_eq_left.mpr h, abs_of_nonpos (sub_nonpos.mpr h)]
      ring
  obtain ⟨left₁, right₁, top₁, bottom₁⟩ := first
  obtain ⟨left₂, right₂, top₂, bottom₂⟩ := second
  have across : x₁ ⊓ x₂ ≤ x₁ ⊔ x₂ := inf_le_sup
  have down : y₁ ⊓ y₂ ≤ y₁ ⊔ y₂ := inf_le_sup
  apply Rect.corners_inside
  all_goals simp only [Shape.rect, Rect.right, Rect.bottom, Scalar.min_eq, Scalar.abs_eq, far]
  · exact le_inf left₁ left₂
  · exact across
  · exact sup_le right₁ right₂
  · exact le_inf top₁ top₂
  · exact down
  · exact sup_le bottom₁ bottom₂

theorem Snug.radical {width height depth thickness : α} (wide : 0 ≤ width) (thick : 0 ≤ thickness)
    (high : thickness / 2 ≤ height + depth) : (radical width height depth thickness).Snug := by
  have total : 0 ≤ height + depth := le_trans (by positivity) high
  refine ⟨wide, total, tidy_visits_of_contents rfl fun _ => keepsInk_of_shapes rfl ?_⟩
  intro x y shape mem
  obtain rfl | rfl := by simpa [ownShapes, Box.radical] using mem
  all_goals
    apply corners_line
    all_goals
      simp only [mem_area, Scalar.ratio_eq, Scalar.whole_eq, plain, outline, Box.radical]
      push_cast
      refine ⟨?_, ?_, ?_, ?_⟩ <;> linarith

/-! ### Glyphs -/

/-- The extent that a glyph needs for the shape that it is drawn as. -/
def HoldsShape (o : Outline α) : GlyphShape → Prop
  | .plus => 8 / 10 * o.width ≤ o.height + o.depth
  | .times => 64 / 100 * o.width ≤ o.height + o.depth
  | .dot => 5 / 10 * o.width ≤ o.height
  | .minus | .equals | .slash | .bar | .block => True

/-- The dot of a glyph is as wide and as high as its radius says, which is a quarter of the width. -/
theorem corners_dot {o : Outline α} (wide : 0 ≤ o.width) (deep : 0 ≤ o.depth)
    (holds : HoldsShape o .dot) (x y : α) :
    ∀ shape ∈ glyphShapes o .dot x y, ∀ p ∈ shape.rect.corners, p ∈ (area o x y).points := by
  intro shape mem
  obtain rfl := List.mem_singleton.mp mem
  have small : o.width * (25 / 100) ⊓ 8 / 100 ≤ o.width * (25 / 100) := inf_le_left
  have positive : 0 ≤ o.width * (25 / 100) ⊓ 8 / 100 := le_inf (by linarith) (by norm_num)
  simp only [HoldsShape] at holds
  simp only [Shape.fillEllipse, Shape.rect, Scalar.min_eq, Scalar.ratio_eq, Scalar.whole_eq,
    Nat.cast_ofNat]
  generalize o.width * (25 / 100) ⊓ 8 / 100 = radius at small positive
  apply Rect.corners_inside
  all_goals
    simp only [area, Rect.right, Rect.bottom]
    linarith

theorem corners_glyph {o : Outline α} {shape : GlyphShape} (wide : 0 ≤ o.width)
    (high : 0 ≤ o.height) (deep : 0 ≤ o.depth) (holds : HoldsShape o shape) (x y : α) :
    ∀ s ∈ glyphShapes o shape x y, ∀ p ∈ s.rect.corners, p ∈ (area o x y).points := by
  intro s mem
  cases shape with
  | plus | times | equals =>
    simp only [glyphShapes, List.mem_cons, List.not_mem_nil, or_false, Scalar.ratio_eq,
      Scalar.whole_eq, Nat.cast_ofNat] at mem
    simp only [HoldsShape] at holds
    rcases mem with rfl | rfl
    all_goals
      apply corners_line
      all_goals
        simp only [mem_area]
        refine ⟨?_, ?_, ?_, ?_⟩ <;> linarith
  | minus | slash | bar =>
    simp only [glyphShapes, List.mem_singleton, Scalar.ratio_eq, Scalar.whole_eq,
      Nat.cast_ofNat] at mem
    subst mem
    apply corners_line
    all_goals
      simp only [mem_area]
      refine ⟨?_, ?_, ?_, ?_⟩ <;> linarith
  | dot => exact corners_dot wide deep holds x y s mem
  | block =>
    obtain rfl := List.mem_singleton.mp mem
    simp only [Shape.rect, Scalar.ratio_eq, Nat.cast_ofNat]
    apply Rect.corners_inside
    all_goals
      simp only [area, Rect.right, Rect.bottom]
      linarith

theorem Snug.glyph {o : Outline α} {ch : Char} {shape : GlyphShape} {thickness : α}
    (plain : o.background = none) (wide : 0 ≤ o.width) (high : 0 ≤ o.height) (deep : 0 ≤ o.depth)
    (holds : ch ∉ loose → HoldsShape o shape) : (glyph o ch shape thickness).Snug := by
  refine ⟨wide, add_nonneg high deep, tidy_visits_of_contents rfl fun firm => ?_⟩
  apply keepsInk_of_shapes (b := Box.glyph o ch shape thickness) plain
  intro x y s mem
  rw [ownShapes] at mem
  split at mem
  · cases mem
  · exact corners_glyph wide high deep (holds (firm ch rfl)) x y s mem

/-! ### Rows and stacks -/

omit [IsStrictOrderedRing α] in
theorem mem_rowVisits {pen : Pen α α} {children : List (Box α)} {x y : α} {w : Visit α α}
    (h : w ∈ rowVisits pen children x y) : ∃ before c after, children = before ++ c :: after ∧
      w = ⟨c, x + (before.map width).sum, y + c.shift, pen⟩ := by
  induction children generalizing x with
  | nil => cases h
  | cons first rest ih =>
    rcases List.mem_cons.mp h with rfl | later
    · exact ⟨[], first, rest, rfl, by simp⟩
    · obtain ⟨before, c, after, rfl, rfl⟩ := ih later
      refine ⟨first :: before, c, after, rfl, ?_⟩
      rw [List.map_cons, List.sum_cons, add_assoc]

omit [IsStrictOrderedRing α] in
theorem mem_stackVisits {pen : Pen α α} {children : List (Box α)} {x y : α} {w : Visit α α}
    (h : w ∈ stackVisits pen children x y) : ∃ before c after, children = before ++ c :: after ∧
      w = ⟨c, x + c.shift, y + (before.map totalHeight).sum + c.height, pen⟩ := by
  induction children generalizing y with
  | nil => cases h
  | cons first rest ih =>
    rcases List.mem_cons.mp h with rfl | later
    · exact ⟨[], first, rest, rfl, by simp⟩
    · obtain ⟨before, c, after, rfl, rfl⟩ := ih later
      refine ⟨first :: before, c, after, rfl, ?_⟩
      rw [List.map_cons, List.sum_cons, totalHeight]
      congr 2
      ring

omit [IsStrictOrderedRing α] in
theorem le_largest {xs : List α} {a : α} (h : a ∈ xs) : a ≤ largest xs := by
  cases xs with
  | nil => cases h
  | cons x rest => exact Scalar.le_foldl_max h

/-- A row keeps its parts if there is room on both sides of each: what stands before it and what
stands after it is not of negative width. -/
theorem keepsParts_row {children : List (Box α)} (breaks : List Nat)
    (room : ∀ before c after, children = before ++ c :: after →
      0 ≤ (before.map width).sum ∧ 0 ≤ (after.map width).sum) :
    (row children breaks).KeepsParts := by
  rintro ⟨b, x, y, pen⟩ same w visited
  obtain rfl : b = row children breaks := same
  obtain ⟨before, c, after, split, rfl⟩ := mem_rowVisits visited
  obtain ⟨left, right⟩ := room before c after split
  have mem : c ∈ children := by simp [split]
  have up : c.ascent ≤ largest (children.map ascent) := le_largest (List.mem_map_of_mem mem)
  have down : c.descent ≤ largest (children.map descent) := le_largest (List.mem_map_of_mem mem)
  have across : (children.map width).sum =
      (before.map width).sum + c.width + (after.map width).sum := by
    simp [split, add_assoc]
  rw [ascent] at up
  rw [descent] at down
  apply Visit.region_subset_of_edges
  · rfl
  · show x ≤ x + (before.map width).sum
    linarith
  · show x + (before.map width).sum + c.width ≤ x + Scalar.sum (children.map width)
    rw [Scalar.sum_eq_sum, across]
    linarith
  · show y - largest (children.map ascent) ≤ y + c.shift - c.height
    linarith
  · show y + c.shift + c.depth ≤ y + largest (children.map descent)
    linarith

theorem totalHeight_row {children : List (Box α)} (breaks : List Nat)
    (high : ∀ c ∈ children, 0 ≤ c.totalHeight) : 0 ≤ (row children breaks).totalHeight := by
  show 0 ≤ largest (children.map ascent) + largest (children.map descent)
  cases children with
  | nil => simp [largest]
  | cons c rest =>
    have up : c.ascent ≤ largest ((c :: rest).map ascent) := le_largest List.mem_cons_self
    have down : c.descent ≤ largest ((c :: rest).map descent) := le_largest List.mem_cons_self
    have own := high c List.mem_cons_self
    rw [totalHeight] at own
    rw [ascent] at up
    rw [descent] at down
    linarith

omit [IsStrictOrderedRing α] in
theorem tidy_row {children : List (Box α)} {breaks : List Nat}
    (parts : (row children breaks).KeepsParts) (tidy : ∀ c ∈ children, ∀ d ∈ c.visits, d.Tidy) :
    ∀ c ∈ (row children breaks).visits, c.Tidy :=
  tidy_visits ⟨parts, fun _ => keepsInk_of_no_shapes rfl fun _ _ => rfl⟩ tidy

theorem Snug.row {children : List (Box α)} (all : ∀ c ∈ children, c.Snug) (breaks : List Nat) :
    (row children breaks).Snug := by
  have wide {part : List (Box α)} (inside : ∀ c ∈ part, c ∈ children) :
      0 ≤ (part.map Box.width).sum :=
    List.sum_nonneg (List.forall_mem_map.mpr fun c hc => (all c (inside c hc)).width)
  constructor
  · show 0 ≤ Scalar.sum (children.map Box.width)
    rw [Scalar.sum_eq_sum]
    exact wide fun _ hc => hc
  · exact totalHeight_row breaks fun c hc => (all c hc).total
  · refine tidy_row (keepsParts_row breaks ?_) fun c hc => (all c hc).tidy
    rintro before c after rfl
    exact ⟨wide fun _ hc => List.mem_append_left _ hc,
      wide fun _ hc => List.mem_append_right _ (List.mem_cons_of_mem _ hc)⟩

theorem Stackable.hbox {children : List (Box α)} (all : ∀ c ∈ children, c.Snug) :
    (hbox children).Stackable :=
  ⟨.row all [], Scalar.whole_zero.ge⟩

section Few

variable {b c d : Box α}

theorem Stackable.hbox_single (h : b.Snug) : (Box.hbox [b]).Stackable :=
  .hbox (List.forall_mem_singleton.mpr h)

theorem Stackable.hbox_pair (h : b.Snug) (k : c.Snug) : (Box.hbox [b, c]).Stackable :=
  .hbox (List.forall_mem_cons.mpr ⟨h, List.forall_mem_singleton.mpr k⟩)

theorem Stackable.hbox_triple (h : b.Snug) (k : c.Snug) (l : d.Snug) :
    (Box.hbox [b, c, d]).Stackable :=
  .hbox (List.forall_mem_cons.mpr ⟨h, List.forall_mem_cons.mpr
    ⟨k, List.forall_mem_singleton.mpr l⟩⟩)

end Few

theorem keepsParts_stack {children : List (Box α)} (height : α)
    (all : ∀ c ∈ children, c.Stackable) : (stack children height).KeepsParts := by
  rintro ⟨b, x, y, pen⟩ same w visited
  obtain rfl : b = stack children height := same
  obtain ⟨before, c, after, split, rfl⟩ := mem_stackVisits visited
  have high {part : List (Box α)} (inside : ∀ c ∈ part, c ∈ children) :
      0 ≤ (part.map totalHeight).sum :=
    List.sum_nonneg (List.forall_mem_map.mpr fun c hc => (all c (inside c hc)).snug.total)
  have mem : c ∈ children := by simp [split]
  have above : 0 ≤ (before.map totalHeight).sum := high fun _ hc => by simp [split, hc]
  have below : 0 ≤ (after.map totalHeight).sum := high fun _ hc => by simp [split, hc]
  have across : c.width + c.shift ≤
      (children.map fun c => c.width + c.shift).foldl Scalar.max (Scalar.whole 0) :=
    Scalar.le_foldl_max (List.mem_cons_of_mem _ (List.mem_map_of_mem mem))
  have down : (children.map totalHeight).sum =
      (before.map totalHeight).sum + c.totalHeight + (after.map totalHeight).sum := by
    simp [split, add_assoc]
  have still := (all c mem).shift
  rw [totalHeight] at down
  apply Visit.region_subset_of_edges
  · rfl
  · show x ≤ x + c.shift
    linarith
  · show x + c.shift + c.width ≤
      x + (children.map fun c => c.width + c.shift).foldl Scalar.max (Scalar.whole 0)
    linarith
  · show y - height ≤ y - height + (before.map totalHeight).sum + c.height - c.height
    linarith
  · show y - height + (before.map totalHeight).sum + c.height + c.depth ≤
      y + (Scalar.sum (children.map totalHeight) - height)
    rw [Scalar.sum_eq_sum, down]
    linarith

theorem Stackable.stack {children : List (Box α)} (all : ∀ c ∈ children, c.Stackable)
    (height : α) : (stack children height).Stackable := by
  refine ⟨⟨?_, ?_, ?_⟩, Scalar.whole_zero.ge⟩
  · show 0 ≤ (children.map fun c => c.width + c.shift).foldl Scalar.max (Scalar.whole 0)
    exact Scalar.whole_zero.symm.trans_le (Scalar.le_foldl_max List.mem_cons_self)
  · show 0 ≤ height + (Scalar.sum (children.map totalHeight) - height)
    rw [Scalar.sum_eq_sum, add_sub_cancel]
    exact List.sum_nonneg (List.forall_mem_map.mpr fun c hc => (all c hc).snug.total)
  · apply tidy_visits
    · exact ⟨keepsParts_stack height all, fun _ => keepsInk_of_no_shapes rfl fun _ _ => rfl⟩
    · exact fun c hc => (all c hc).snug.tidy

end Box

end FormulaInk
