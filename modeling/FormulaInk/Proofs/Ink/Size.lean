import Mathlib
import FormulaInk.Icon.Build
import FormulaInk.Proofs.Ink.Room

/-! The size of an icon bounds its ink. The box of a build keeps what it draws, wherever it is placed
and into however many lines it is broken, and its extent in pixels is no more than a hundredth short
of the extent of the box for each number that is rounded. -/

namespace FormulaInk

variable {α : Type} [Turns α] [Field α] [LinearOrder α]

/-! ### Whole pixels -/

namespace Scalar

theorem ofInt_eq (n : Int) : (ofInt n : α) = n := by
  cases n with
  | ofNat n => simp [ofInt, whole]
  | negSucc n => simp [ofInt, whole]

variable [FloorRing α]

/-- The number without its fraction. -/
def wholePart (a : α) : Int := if 0 ≤ a then ⌊a⌋ else ⌈a⌉

/-- Exact numbers are held within the range of pixels when they are truncated. -/
instance (priority := low) exactTruncating : Truncating α := ⟨fun a => Pixels.clamp (wholePart a)⟩

theorem sub_one_lt_wholePart [IsStrictOrderedRing α] (a : α) : a - 1 < wholePart a := by
  rw [wholePart]
  split
  · exact Int.sub_one_lt_floor a
  · exact (sub_one_lt a).trans_le (Int.le_ceil a)

theorem truncate_nonneg [IsStrictOrderedRing α] {a : α} (h : 0 ≤ a) : 0 ≤ Truncating.truncate a := by
  have floor : 0 ≤ wholePart a := by
    rw [wholePart, if_pos h]
    exact Int.floor_nonneg.mpr h
  show 0 ≤ Pixels.clamp (wholePart a)
  simp only [Pixels.clamp, Pixels.least, Pixels.most]
  omega

end Scalar

namespace Icon

variable [FloorRing α]

/-- A length in em as a number of pixels, where these have no bounds. -/
def wholePixels (i : Icon α) (length : α) : Int :=
  Scalar.wholePart (length * i.scale + Scalar.ratio 99 100)

/-- No number of pixels is so large that the extent of the icon loses some of them. -/
structure Counted (i : Icon α) : Prop where
  width : i.wholePixels i.box.width + i.insets.left + i.insets.right ≤ i.width
  height : i.wholePixels i.box.height + i.insets.top + i.wholePixels i.box.depth +
    i.insets.bottom ≤ i.height

variable [IsStrictOrderedRing α]

theorem lt_wholePixels (i : Icon α) (length : α) :
    length * i.scale < i.wholePixels length + 1 / 100 := by
  have rounded := Scalar.sub_one_lt_wholePart (length * i.scale + Scalar.ratio 99 100)
  rw [← wholePixels, Scalar.ratio_eq] at rounded
  push_cast at rounded
  linarith

/-! ### Ink -/

omit [FloorRing α] [IsStrictOrderedRing α] in
/-- An icon is painted as a visit to its box, stretched to its size behind the margins. -/
theorem exists_pen (i : Icon α) :
    ∃ pen : Pen α α,
      (i.paint 0 0 Recording.blank).commands = Box.Visit.ink ⟨i.box, 0, i.box.height, pen⟩ ∧
      ∀ p, pen.transform.apply p =
        (i.scale * p.1 + i.insets.left, i.scale * p.2 + i.insets.top) := by
  let g : Recording α α := (((Recording.blank.withColor (i.foreground.getD .black)).translate
    (0 + Scalar.ofInt i.insets.left) (0 + Scalar.ofInt i.insets.top)).scale i.scale i.scale)
  have painted : (i.paint 0 0 Recording.blank).commands =
      (i.box.paint (Scalar.whole 0) i.box.height g).commands := rfl
  refine ⟨g.pen, ?_, fun p => ?_⟩
  · rw [painted, Box.paint_eq, Scalar.whole_zero]
    rfl
  · have moved : g.pen.transform = (Transform.identity.translate (0 + Scalar.ofInt i.insets.left)
      (0 + Scalar.ofInt i.insets.top)).scale i.scale i.scale := rfl
    rw [moved, Transform.apply_scale, Transform.apply_translate]
    simp [Transform.apply, Transform.identity, Scalar.whole, Scalar.ofInt_eq]

/-- The rectangle of the device that the box of an icon is painted in. -/
def body (i : Icon α) : Rect α :=
  ⟨i.insets.left, i.insets.top, i.box.width * i.scale, i.box.totalHeight * i.scale⟩

omit [FloorRing α] in
theorem ink_within_body (i : Icon α) (positive : 0 ≤ i.scale)
    (tidy : ∀ b ∈ i.box.visits, b.Tidy)
    (firm : ∀ b ∈ i.box.visits, (∃ ch ∈ b.char?, ch ∈ Box.loose) → b.KeepsInk)
    {b : Bounds α} (drawn : (i.paint 0 0 Recording.blank).bounds = some b) : b.Within i.body := by
  obtain ⟨pen, painted, moved⟩ := i.exists_pen
  have ink : ∀ c ∈ i.box.visits, c.KeepsInk := by
    intro c mem
    by_cases some : ∃ ch ∈ c.char?, ch ∈ Box.loose
    · exact firm c mem some
    · exact (tidy c mem).ink fun ch has hard => some ⟨ch, has, hard⟩
  apply Recording.bounds_within _ drawn
  rw [painted]
  intro c mem p corner
  obtain ⟨q, inside, rfl⟩ :=
    Box.Visit.mem_region_of_ink _ (fun b mem => (tidy b mem).parts) ink c mem p corner
  obtain ⟨h₁, h₂, h₃, h₄⟩ : 0 ≤ q.1 ∧ q.1 ≤ 0 + i.box.width ∧
    i.box.height - i.box.height ≤ q.2 ∧ q.2 ≤ i.box.height + i.box.depth := Box.mem_area.mp inside
  rw [zero_add] at h₂
  rw [sub_self] at h₃
  have left := mul_nonneg positive h₁
  have right := mul_le_mul_of_nonneg_left h₂ positive
  have top := mul_nonneg positive h₃
  have bottom := mul_le_mul_of_nonneg_left h₄ positive
  rw [moved]
  refine ⟨?_, ?_, ?_, ?_⟩
  · exact le_add_of_nonneg_left left
  · show i.scale * q.1 + i.insets.left ≤ i.insets.left + i.box.width * i.scale
    linarith
  · exact le_add_of_nonneg_left top
  · show i.scale * q.2 + i.insets.top ≤
      i.insets.top + (i.box.height + i.box.depth) * i.scale
    linarith

end Icon

/-! ### Builds -/

section Builds

variable [IsStrictOrderedRing α]

theorem Setting.unitFactor_nonneg {s : Setting α} (proper : s.Proper) (unit : LengthUnit) :
    0 ≤ s.unitFactor unit := by
  have size := proper.size
  have density := proper.density
  have factor := s.style.factor_pos (α := α)
  cases unit <;>
    simp only [unitFactor, Font.quad, Font.xHeight, Font.mu, point, printersPoint, didotPoint,
      Scalar.ratio_eq, Scalar.whole_eq] <;> positivity

namespace Icon.Config

omit [IsStrictOrderedRing α] in
theorem positive_of_isPositive {a : α} (h : isPositive a = true) : 0 < a := by
  rw [isPositive, Bool.and_eq_true, decide_eq_true_eq, Scalar.whole_zero] at h
  exact h.2

omit [IsStrictOrderedRing α] in
/-- A build that validates has a positive size and density. -/
theorem positive_of_validate {c : Config α} {style : Style} {size : α}
    (valid : c.validate = .ok (style, size)) : 0 < size ∧ 0 < c.pixelsPerPoint := by
  unfold validate at valid
  split at valid
  · cases valid
  · cases valid
  · split at valid
    · cases valid
    · next small =>
      split at valid
      · cases valid
      · next thin =>
        rw [Bool.not_eq_true, Bool.not_eq_false'] at small thin
        refine ⟨?_, positive_of_isPositive thin⟩
        split at valid
        · cases valid
        · split at valid
          · cases valid
            exact positive_of_isPositive small
          · dsimp only at valid
            split at valid
            · cases valid
            · cases valid
              exact positive_of_isPositive small

omit [IsStrictOrderedRing α] in
theorem proper_setting {c : Config α} (style : Style) {size : α} (font : Option FontType)
    (positive : 0 < size) (dense : 0 < c.pixelsPerPoint) : (c.setting style size font).Proper := by
  unfold setting
  cases c.width <;> cases c.interline <;> exact ⟨positive, dense⟩

omit [IsStrictOrderedRing α] in
theorem interline_setting (c : Config α) (style : Style) (size : α) (font : Option FontType) :
    (c.setting style size font).interline =
      c.interline.map (c.setting style size font).length := by
  unfold setting
  cases c.width <;> cases c.interline <;> rfl

/-- A box that may be broken into lines keeps what it draws when it is placed. -/
theorem snug_place (c : Config α) {s : Setting α} (apart : ∀ gap ∈ s.interline, 0 ≤ gap) {b : Box α}
    (h : b.Settled) : (c.place s b).1.Snug := by
  unfold place
  cases c.width with
  | none => exact h.snug
  | some width =>
    cases s.textWidth with
    | none => exact h.snug
    | some textWidth =>
      cases gap : s.interline with
      | none => exact (Box.Stackable.aligned h.snug _ _).snug
      | some interline =>
        have broken := h.snug.split (h.lines textWidth) (apart interline gap)
        exact (Box.Stackable.aligned broken _ _).snug

theorem snug_root {root : Option (Atom α)} (room : ∀ a ∈ root, ∀ n ∈ a.nodes, n.TakesRoom)
    {s : Setting α} (proper : s.Proper) :
    ((root.map (Atom.layout s)).getD (.plain .nothing)).box.Settled := by
  cases root with
  | none => exact Box.Snug.nothing.settled rfl fun _ => rfl
  | some a => exact a.settled_layout (room a rfl) proper

end Icon.Config

namespace Icon

variable [FloorRing α]

/-- An icon with a box that keeps what it draws, and with a scale and margins that are not negative. -/
structure Sound (i : Icon α) : Prop where
  snug : i.box.Snug
  scale : 0 ≤ i.scale
  left : 0 ≤ i.insets.left
  top : 0 ≤ i.insets.top
  right : 0 ≤ i.insets.right
  bottom : 0 ≤ i.insets.bottom

/-- The padding of an icon without true values is not negative. -/
theorem sound_ofBox {box : Box α} (snug : box.Snug) {size density : α} (positive : 0 < size)
    (dense : 0 < density) (trueValues : Bool) : (ofBox box size trueValues density).Sound := by
  have scale : 0 ≤ size * density := mul_nonneg positive.le dense.le
  cases trueValues with
  | true => exact ⟨snug, scale, le_refl 0, le_refl 0, le_refl 0, le_refl 0⟩
  | false =>
    have padding : 0 ≤ Scalar.ratio 18 100 * size := by
      rw [Scalar.ratio_eq]
      positivity
    have pad := Scalar.truncate_nonneg padding
    have margin : 0 ≤ Pixels.add 0 (Truncating.truncate (Scalar.ratio 18 100 * size)) := by
      simp only [Pixels.add, Pixels.clamp, Pixels.least, Pixels.most]
      omega
    exact ⟨snug, scale, margin, margin, margin, margin⟩

theorem sound_build {c : Config α} {root : Option (Atom α)} {font : Option FontType}
    {built : Built α} (finished : c.build root font = .ok built)
    (room : ∀ a ∈ root, ∀ n ∈ a.nodes, n.TakesRoom) (apart : ∀ l ∈ c.interline, 0 ≤ l.value) :
    built.icon.Sound := by
  rw [Config.build] at finished
  cases valid : Config.validate c with
  | error fault =>
    rw [valid] at finished
    cases finished
  | ok asked =>
    obtain ⟨style, size⟩ := asked
    rw [valid] at finished
    cases finished
    obtain ⟨positive, dense⟩ := Config.positive_of_validate valid
    have proper := Config.proper_setting style font positive dense
    have gaps : ∀ gap ∈ (c.setting style size font).interline, 0 ≤ gap := by
      intro gap found
      rw [Config.interline_setting, Option.mem_def, Option.map_eq_some_iff] at found
      obtain ⟨l, asked, rfl⟩ := found
      exact mul_nonneg (apart l asked) (Setting.unitFactor_nonneg proper l.unit)
    have sound := sound_ofBox (c.snug_place gaps (Config.snug_root room proper)) positive dense
      c.trueValues
    exact ⟨sound.snug, sound.scale, sound.left, sound.top, sound.right, sound.bottom⟩

/-- The body of an icon ends less than a hundredth of a pixel behind its pixels, and not behind them
if there is a margin. -/
theorem right_body_lt {i : Icon α} (counted : i.Counted) (margin : 0 ≤ i.insets.right) :
    i.body.right < i.width + 1 / 100 ∧ (0 < i.insets.right → i.body.right ≤ i.width) := by
  have fits : (i.wholePixels i.box.width : α) + i.insets.left + i.insets.right ≤ i.width := by
    exact_mod_cast counted.width
  have short := i.lt_wholePixels i.box.width
  have margin : (0 : α) ≤ i.insets.right := by exact_mod_cast margin
  have right : i.body.right = i.insets.left + i.box.width * i.scale := rfl
  constructor
  · linarith
  · intro wide
    have wide : (1 : α) ≤ i.insets.right := by exact_mod_cast wide
    linarith

theorem bottom_body_lt {i : Icon α} (counted : i.Counted) (margin : 0 ≤ i.insets.bottom) :
    i.body.bottom < i.height + 2 / 100 ∧ (0 < i.insets.bottom → i.body.bottom ≤ i.height) := by
  have fits : (i.wholePixels i.box.height : α) + i.insets.top + i.wholePixels i.box.depth +
      i.insets.bottom ≤ i.height := by
    exact_mod_cast counted.height
  have high := i.lt_wholePixels i.box.height
  have deep := i.lt_wholePixels i.box.depth
  have margin : (0 : α) ≤ i.insets.bottom := by exact_mod_cast margin
  have bottom : i.body.bottom = i.insets.top + (i.box.height + i.box.depth) * i.scale := rfl
  rw [add_mul] at bottom
  constructor
  · linarith
  · intro wide
    have wide : (1 : α) ≤ i.insets.bottom := by exact_mod_cast wide
    linarith

end Icon

end Builds

namespace Icon

end Icon

end FormulaInk
