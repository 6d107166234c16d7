import Mathlib
import FormulaInk.Proofs.Ink.Edits
import FormulaInk.Proofs.Ink.Lines
import FormulaInk.Proofs.Ink.Painting
import FormulaInk.Rendering

/-! The glyphs of an icon are the characters of its formula, whatever the width, the alignment and
the line breaks that the build is asked for. -/

namespace FormulaInk

namespace Icon

variable {α : Type} [Scalar α]

namespace Config

/-- What a request does to a box is to place it: at most line breaks and then alignment. -/
theorem exists_places (c : Config α) (s : Setting α) (b : Box α) :
    ∃ steps : List (Box.Placement α), (c.place s b).1 = steps.foldl Box.place b := by
  unfold place
  cases c.width with
  | none => exact ⟨[], rfl⟩
  | some width =>
    cases s.textWidth with
    | none => exact ⟨[], rfl⟩
    | some textWidth =>
      cases s.interline with
      | none => exact ⟨[.aligned _ width.align], rfl⟩
      | some interline => exact ⟨[.split textWidth interline, .aligned _ width.align], rfl⟩

/-- Line breaks and alignment move glyphs, and leave which they are and their order. -/
theorem glyphs_place (c : Config α) (s : Setting α) (b : Box α) :
    (c.place s b).1.glyphs = b.glyphs := by
  obtain ⟨steps, placed⟩ := c.exists_places s b
  rw [placed, Box.glyphs_places]

theorem glyphs_root (root : Option (Atom α)) (s : Setting α) :
    ((root.map (Atom.layout s)).getD (.plain .nothing)).box.glyphs =
      root.toList.flatMap Atom.ink := by
  cases root with
  | none => rfl
  | some a => simpa using a.glyphs_layout s

variable {δ : Type} [Scalar δ] [Widening α δ] [Truncating α]

/-- A build that validates gives an icon with the characters of the tree as its glyphs. -/
theorem glyphs_build {c : Config α} {style : Style} {size : α} (valid : c.validate = .ok (style, size))
    (root : Option (Atom α)) (font : Option FontType) :
    ∃ built, c.build root font = .ok built ∧
      built.icon.box.glyphs = root.toList.flatMap Atom.ink := by
  refine ⟨_, by rw [build, valid], ?_⟩
  show (c.place _ _).1.glyphs = _
  rw [glyphs_place, glyphs_root]

end Config

end Icon

namespace Formula

open Icon

/-- No ink is lost, doubled or moved on the way from the edits of a formula to its icon: for edits
that succeed and a request that validates there is an icon, and its glyphs are the characters of the
appended atoms in the order of the layout, edit after edit. Painting comes to the glyphs in this
order. -/
theorem glyphs_icon {edits : List (Registry × Edit)} {f : Formula}
    (edited : Edit.runAll edits .empty = some f) {c : Config Float32} {style : Style}
    {size : Float32} (valid : c.validate = .ok (style, size)) :
    ∃ built, f.icon c = .ok built ∧ built.icon.box.glyphs = Edit.allInk edits ∧
      ∀ (x y : Float32) (g : Recording Float32 Float),
        Box.Paints built.icon.box.visits g (built.icon.box.paint x y g) := by
  obtain ⟨built, builds, glyphs⟩ :=
    Config.glyphs_build valid f.root (f.textStyle.map TextStyle.font)
  refine ⟨built, by rw [icon, builds]; rfl, ?_, built.icon.box.paints⟩
  rw [glyphs, ← ink, Edit.ink_runAll edited]
  rfl

/-- A letter that is read, a sign after which the line may be broken, and a fraction, all in one
color, in lines of a quarter of an em. -/
theorem glyphs_icon_broken :
    let edits : List (Registry × Edit) :=
      [(.empty, .append .strict "a"), (.empty, .add (.symbol "plus" '+' .binaryOperator)),
        (.empty, .add (.fraction (.char 'b') (.char 'c'))), (.empty, .setColor .black)]
    let c : Config Float32 :=
      { style := some .display
        size := some (Scalar.whole 20)
        width := some ⟨⟨.em, Scalar.ratio 1 4⟩, .center, false⟩
        interline := some ⟨.em, Scalar.ratio 1 4⟩
        pixelsPerPoint := Scalar.whole 1 }
    ∃ f, Edit.runAll edits .empty = some f ∧ c.validate = .ok (.display, Scalar.whole 20) ∧
      ∃ built, f.icon c = .ok built ∧ built.icon.box.glyphs = ['a', '+', 'b', 'c'] ∧
        ∀ (x y : Float32) (g : Recording Float32 Float),
          Box.Paints built.icon.box.visits g (built.icon.box.paint x y g) := by
  intro edits c
  obtain ⟨f, edited⟩ : ∃ f, Edit.runAll edits .empty = some f :=
    Option.isSome_iff_exists.mp (by cbv)
  have size : Config.isPositive (Scalar.whole 20 : Float32) = true := by decide +kernel
  have pixels : Config.isPositive (Scalar.whole 1 : Float32) = true := by decide +kernel
  have scale : ¬(Scalar.whole Config.mostPixelsPerEm : Float) <
      Widening.widen (Scalar.whole 20 : Float32) * Widening.widen (Scalar.whole 1 : Float32) := by
    decide +kernel
  have finite : Scalar.isFinite (Scalar.ratio 1 4 : Float32) = true := by decide +kernel
  have positive : ¬(Scalar.ratio 1 4 : Float32) < Scalar.whole 0 := by decide +kernel
  have valid : c.validate = .ok (.display, Scalar.whole 20) := by
    simp [Config.validate, c, size, pixels, scale, finite, positive]
  have ink : Edit.allInk edits = ['a', '+', 'b', 'c'] := by cbv
  obtain ⟨built, builds, glyphs, painted⟩ := glyphs_icon edited valid
  exact ⟨f, edited, valid, built, builds, glyphs.trans ink, painted⟩

end Formula

end FormulaInk
