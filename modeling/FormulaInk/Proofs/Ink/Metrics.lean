import Mathlib
import FormulaInk.Layout.Parts
import FormulaInk.Layout.Row
import FormulaInk.Proofs.Ink.Snug

/-! The metrics of the font in exact arithmetic. No measure is negative, and no font type makes a
glyph too wide for the shape that it is drawn as, but for the loose characters. -/

namespace FormulaInk

namespace GlyphMetrics

variable {α : Type} [Scalar α]

/-- The metrics of every character are whole thousandths of an em, before its type is looked at. -/
theorem exists_upright (ch : Char) :
    ∃ width height depth, (ofChar ch : GlyphMetrics α) = upright width height depth := by
  rw [ofChar]
  split
  · exact ⟨_, _, _, rfl⟩
  · split
    · rw [small.eq_def]
      split <;> exact ⟨_, _, _, rfl⟩
    · split
      · exact ⟨_, _, _, rfl⟩
      · rw [other.eq_def]
        split <;> try exact ⟨_, _, _, rfl⟩
        split <;> exact ⟨_, _, _, rfl⟩

theorem ofChar_of_times {ch : Char} (drawn : GlyphShape.ofChar ch = .times) :
    (ofChar ch : GlyphMetrics α) = upright 778 583 83 := by
  unfold GlyphShape.ofChar at drawn
  split at drawn <;> cases drawn <;> rfl

/-- A dot is high enough in every type, but for that of a comma. -/
theorem ofChar_of_dot {ch : Char} (drawn : GlyphShape.ofChar ch = .dot) (other : ch ≠ ',') :
    ∃ width height depth, (ofChar ch : GlyphMetrics α) = upright width height depth ∧
      575 ≤ 2 * height ∧ 11 * width + 500 ≤ 20 * height := by
  unfold GlyphShape.ofChar at drawn
  split at drawn <;> cases drawn
  · exact ⟨278, 431, 0, rfl, by decide, by decide⟩
  · exact ⟨778, 583, 83, rfl, by decide, by decide⟩
  · have middle : (ofChar '·' : GlyphMetrics α) = GlyphMetrics.other '·' := by
      rw [ofChar, if_neg (by decide), if_neg (by decide), if_neg (by decide)]
    rw [middle, GlyphMetrics.other]
    · split
      · exact ⟨600, 694, 0, rfl, by decide, by decide⟩
      · exact ⟨600, 683, 0, rfl, by decide, by decide⟩
    all_goals decide
  · exact absurd rfl other

/-- A plus sign, a comma and their like are loose. -/
theorem mem_loose_of_plus {ch : Char} (drawn : GlyphShape.ofChar ch = .plus) : ch ∈ Box.loose := by
  unfold GlyphShape.ofChar at drawn
  split at drawn <;> cases drawn <;> decide

end GlyphMetrics

section Exact

variable {α : Type} [Turns α] [Field α] [LinearOrder α] [IsStrictOrderedRing α]

theorem Style.factor_pos (style : Style) : 0 < (style.factor : α) := by
  rw [factor]
  split <;> simp only [Scalar.whole_eq, Scalar.ratio_eq] <;> norm_num

/-- The spaces in formulas are portions of a quad. -/
theorem Style.portion_nonneg (n d : Nat) (style : Style) :
    0 ≤ (Scalar.ratio n d * style.factor : α) :=
  mul_nonneg (div_nonneg (Nat.cast_nonneg n) (Nat.cast_nonneg d)) style.factor_pos.le

namespace Font

theorem mu_pos (style : Style) : 0 < (mu style : α) :=
  div_pos style.factor_pos (by norm_num [Scalar.whole_eq])

theorem xHeight_pos (style : Style) : 0 < (xHeight style : α) :=
  mul_pos (by norm_num [Scalar.ratio_eq]) style.factor_pos

theorem ruleThickness_pos (style : Style) : 0 < (ruleThickness style : α) :=
  mul_pos (by norm_num [Scalar.ratio_eq]) style.factor_pos

theorem weight_pos (f : Font α) : 0 < f.weight := by
  rw [weight]
  split <;> norm_num [Scalar.ratio_eq, Scalar.whole_eq]

theorem weight_le (f : Font α) : f.weight ≤ 16 / 10 := by
  rw [weight]
  split <;> norm_num [Scalar.ratio_eq, Scalar.whole_eq]

theorem adjustWidth_nonneg (type : FontType) {width : α} (wide : 0 ≤ width) :
    0 ≤ adjustWidth type width := by
  simp only [adjustWidth, Scalar.ratio_eq]
  split_ifs <;> positivity

/-- A glyph is 0.525 em wide in a type of fixed width, and in others at most a tenth wider than in
the plain font. -/
theorem adjustWidth_le (type : FontType) {width limit : α} (wide : 0 ≤ width)
    (fixed : 525 / 1000 ≤ limit) (bold : width * (11 / 10) ≤ limit) :
    adjustWidth type width ≤ limit := by
  have narrow : width ≤ width * (11 / 10) := by linarith
  simp only [adjustWidth, Scalar.ratio_eq, Nat.cast_ofNat]
  split_ifs <;> linarith

section Glyph

variable (f : Font α) {ch : Char} (style : Style) {width height depth : Nat}
  (plain : GlyphMetrics.ofChar ch = (.upright width height depth : GlyphMetrics α))

include plain

omit [IsStrictOrderedRing α] in
theorem metrics_eq : f.metrics ch style = GlyphMetrics.scale
    ⟨adjustWidth f.type ((width : α) / 1000), (height : α) / 1000, (depth : α) / 1000,
      if isSlanted f.type ch then 5 / 100 else 0⟩ style.factor := by
  simp only [metrics, plain, GlyphMetrics.upright, Scalar.ratio_eq, Nat.cast_ofNat,
    Scalar.whole_zero]

omit [IsStrictOrderedRing α] in
theorem height_metrics : (f.metrics ch style).height = (height : α) / 1000 * style.factor := by
  rw [metrics_eq f style plain]
  rfl

omit [IsStrictOrderedRing α] in
theorem depth_metrics : (f.metrics ch style).depth = (depth : α) / 1000 * style.factor := by
  rw [metrics_eq f style plain]
  rfl

theorem advance_nonneg : 0 ≤ (f.metrics ch style).advance := by
  have wide : 0 ≤ adjustWidth f.type ((width : α) / 1000) :=
    adjustWidth_nonneg f.type (by positivity)
  have factor := style.factor_pos (α := α).le
  rw [metrics_eq f style plain]
  apply add_nonneg
  · exact mul_nonneg wide factor
  · apply mul_nonneg _ factor
    split <;> positivity

/-- The italic space comes to the width. -/
theorem advance_le (limit : α) (fixed : 575 / 1000 ≤ limit)
    (bold : width / 1000 * (11 / 10) + 5 / 100 ≤ limit) :
    (f.metrics ch style).advance ≤ limit * style.factor := by
  have wide : (0 : α) ≤ width / 1000 := by positivity
  have adjusted : adjustWidth f.type ((width : α) / 1000) ≤ limit - 5 / 100 :=
    adjustWidth_le f.type wide (by linarith) (by linarith)
  have slanted : adjustWidth f.type ((width : α) / 1000) +
      (if isSlanted f.type ch then 5 / 100 else 0) ≤ limit := by
    split <;> linarith
  rw [metrics_eq f style plain]
  show _ * _ + _ * _ ≤ _
  rw [← add_mul]
  exact mul_le_mul_of_nonneg_right slanted style.factor_pos.le

end Glyph

end Font

/-- In every type a glyph has the extent that its shape needs. -/
theorem holdsShape_glyph (s : Setting α) {ch : Char} (firm : ch ∉ Box.loose) :
    Box.HoldsShape (Layout.glyph s ch).outline (.ofChar ch) := by
  have factor := s.style.factor_pos (α := α).le
  cases drawn : GlyphShape.ofChar ch with
  | plus => exact absurd (GlyphMetrics.mem_loose_of_plus drawn) firm
  | times =>
    have plain := GlyphMetrics.ofChar_of_times (α := α) drawn
    have narrow := s.font.advance_le s.style plain (906 / 1000) (by norm_num) (by norm_num)
    show 64 / 100 * (s.font.metrics ch s.style).advance ≤
      (s.font.metrics ch s.style).height + (s.font.metrics ch s.style).depth
    rw [Font.height_metrics s.font s.style plain, Font.depth_metrics s.font s.style plain]
    push_cast
    linarith
  | dot =>
    have other : ch ≠ ',' := by
      rintro rfl
      exact firm (by decide)
    obtain ⟨width, height, depth, plain, fixed, bold⟩ :=
      GlyphMetrics.ofChar_of_dot (α := α) drawn other
    have fixed : (575 : α) ≤ 2 * height := by exact_mod_cast fixed
    have bold : (11 : α) * width + 500 ≤ 20 * height := by exact_mod_cast bold
    have narrow := s.font.advance_le s.style plain (2 * (height / 1000)) (by linarith)
      (by linarith)
    show 5 / 10 * (s.font.metrics ch s.style).advance ≤ (s.font.metrics ch s.style).height
    rw [Font.height_metrics s.font s.style plain]
    linarith
  | minus | equals | slash | bar | block => trivial

theorem Box.HoldsShape.taller {o p : Outline α} {shape : GlyphShape} (holds : HoldsShape o shape)
    (width : p.width = o.width) (height : o.height ≤ p.height) (depth : o.depth ≤ p.depth) :
    HoldsShape p shape := by
  cases shape with
  | plus | times | dot =>
    simp only [HoldsShape] at holds ⊢
    linarith
  | minus | equals | slash | bar | block => trivial

/-- A glyph keeps what it draws, also when it is higher and deeper than its character is. -/
theorem snug_tall_glyph (s : Setting α) (ch : Char) {height depth : α} (thickness : α)
    (high : (s.font.metrics ch s.style).height ≤ height)
    (deep : (s.font.metrics ch s.style).depth ≤ depth) :
    (Box.ofChar ch (s.font.metrics ch s.style).advance height depth thickness).Snug := by
  obtain ⟨w, h, d, plain⟩ := GlyphMetrics.exists_upright (α := α) ch
  have factor := s.style.factor_pos (α := α).le
  apply Box.Snug.glyph
  · rfl
  · exact s.font.advance_nonneg s.style plain
  · apply le_trans _ high
    rw [Font.height_metrics s.font s.style plain]
    positivity
  · apply le_trans _ deep
    rw [Font.depth_metrics s.font s.style plain]
    positivity
  · intro firm
    exact (holdsShape_glyph s firm).taller rfl high deep

theorem snug_glyph (s : Setting α) (ch : Char) : (Layout.glyph s ch).Snug :=
  snug_tall_glyph s ch _ (le_refl _) (le_refl _)

theorem snug_grow_glyph (s : Setting α) (ch : Char) (height depth : α) :
    (Row.grow height depth (Layout.glyph s ch)).Snug := by
  apply snug_tall_glyph s ch
  · rw [Scalar.max_eq]
    exact le_sup_left
  · rw [Scalar.max_eq]
    exact le_sup_left

end Exact

end FormulaInk
