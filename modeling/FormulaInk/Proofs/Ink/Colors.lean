import FormulaInk.Proofs.Ink.Layout
import FormulaInk.Proofs.Ink.Painting
import FormulaInk.Proofs.Ink.Icon
import FormulaInk.Proofs.Registry.Read

/-! The innermost color wins: a glyph is drawn in the foreground of the nearest color node around
its character, and else in the color that the pen had at the start. -/

namespace FormulaInk

namespace Box

variable {α δ : Type} [Scalar α]

/-- A visit draws the glyph of a character in a color. What is filled behind the glyph, if its box
has a background, is apart. -/
structure Visit.Shows (v : Visit α δ) (shade : Color × Char) : Prop where
  char : v.box.char? = some shade.2
  ink : ∃ ink, v.commands = v.fill ++ ink ∧ ∀ command ∈ ink, command.pen.color = shade.1

/-- The visits to the glyphs draw them in the shades that are read off the boxes. -/
theorem forall₂_shows (visits : List (Visit α δ)) :
    List.Forall₂ Visit.Shows (visits.filter (·.box.char?.isSome))
      ((visits.map fun v => (v.pen.color, v.box)).flatMap
        fun v => Probe.shades.see v.1 v.2.mark) := by
  induction visits with
  | nil => exact .nil
  | cons v rest ih =>
    rw [List.map_cons, List.flatMap_cons]
    cases glyph : v.box.char? with
    | none =>
      have unseen : Probe.shades.see v.pen.color v.box.mark = [] :=
        Probe.seesChars_shades _ _ glyph
      rwa [List.filter_cons_of_neg (by simp [glyph]), unseen, List.nil_append]
    | some ch =>
      have seen : Probe.shades.see v.pen.color v.box.mark =
          [(v.box.foreground.getD v.pen.color, ch)] := by
        simp [Probe.shades, mark, glyph]
      rw [List.filter_cons_of_pos (by simp [glyph]), seen, List.singleton_append]
      exact .cons ⟨glyph, v.exists_ink⟩ ih

variable [Scalar δ] [Widening α δ]

/-- A box without color is drawn in the color of the pen. -/
theorem IsColorless.commands_paint {b : Box α} (plain : b.IsColorless) (x y : α)
    (g : Recording α δ) :
    ∃ drawn, (b.paint x y g).commands = g.commands ++ drawn ∧
      ∀ command ∈ drawn, command.pen.color = g.pen.color := by
  obtain ⟨visits, tinted, drawn⟩ := b.draws x y (rfl : g.pen.color = g.pen.color)
  refine ⟨_, drawn, fun command hc => ?_⟩
  obtain ⟨v, hv, hc⟩ := List.mem_flatMap.mp hc
  have inside : (v.pen.color, v.box) ∈ b.tinted g.pen.color :=
    tinted ▸ List.mem_map_of_mem hv
  obtain ⟨same, colorless⟩ := plain.of_mem_tinted inside
  obtain ⟨fore, back⟩ := colorless.colors_eq_none
  obtain ⟨ink, commands, inked⟩ := v.exists_ink
  have unfilled : v.fill = [] := by
    rw [Visit.fill, back]
    rfl
  rw [commands, unfilled, List.nil_append] at hc
  rw [inked command hc, fore, Option.getD_none]
  exact same

end Box

namespace Atom

variable {α : Type} [Scalar α]

/-- The box of an atom, wherever it is placed, shows the shades of the atom. -/
theorem shades_places (a : Atom α) (s : Setting α) (steps : List (Box.Placement α)) (c : Color) :
    (steps.foldl Box.place (a.layout s).box).gather .shades c = a.shades c := by
  rw [Box.gather_places Probe.seesChars_shades,
    gather_layout .shades a (fun _ => Probe.tints_shades)]
  exact List.flatMap_singleton' _

theorem isColorless_layout {a : Atom α} (h : a.hasColor = false) (s : Setting α) :
    (a.layout s).box.IsColorless := by
  intro c
  rw [gather_layout .hues a (fun colored => absurd colored (by simp [h]))]
  exact List.flatMap_eq_nil_iff.mpr fun _ _ => rfl

variable {δ : Type} [Scalar δ] [Widening α δ]

theorem paint_shades (a : Atom α) (s : Setting α) (steps : List (Box.Placement α)) (x y : α)
    (g : Recording α δ) :
    let b := steps.foldl Box.place (a.layout s).box
    ∃ visits : List (Box.Visit α δ), visits.map Box.Visit.box = b.visits ∧
      (b.paint x y g).commands = g.commands ++ visits.flatMap Box.Visit.commands ∧
      List.Forall₂ Box.Visit.Shows (visits.filter (·.box.char?.isSome)) (a.shades g.pen.color) := by
  intro b
  obtain ⟨visits, tinted, drawn⟩ := b.draws x y (rfl : g.pen.color = g.pen.color)
  have boxes : visits.map Box.Visit.box = b.visits := by
    rw [← b.map_tinted g.pen.color, ← tinted, List.map_map]
    rfl
  have shades : b.gather .shades g.pen.color = a.shades g.pen.color := a.shades_places s steps _
  rw [Box.gather, ← tinted] at shades
  exact ⟨visits, boxes, drawn, shades ▸ Box.forall₂_shows visits⟩

end Atom

namespace Icon

variable {α δ : Type} [Scalar α] [Scalar δ] [Widening α δ]

theorem commands_paint {i : Icon α} (plain : i.box.IsColorless) (x y : δ) (g : Recording α δ) :
    ∃ drawn, (i.paint x y g).commands = g.commands ++ drawn ∧
      ∀ command ∈ drawn, command.pen.color = i.foreground.getD .black :=
  plain.commands_paint _ _ _

variable [Truncating α]

/-- The icon of a tree without color has no color in its box. -/
theorem Config.isColorless_build {c : Config α} {root : Option (Atom α)} {font : Option FontType}
    {built : Built α} (builds : c.build root font = .ok built)
    (colorless : ∀ a ∈ root, a.hasColor = false) : built.icon.box.IsColorless := by
  unfold build at builds
  cases valid : validate (δ := δ) c with
  | error fault => simp [valid] at builds
  | ok request =>
    rw [valid] at builds
    obtain rfl := Except.ok.inj builds
    have laid (s : Setting α) :
        ((root.map (Atom.layout s)).getD (.plain .nothing)).box.IsColorless := by
      cases root with
      | none => exact fun c => Box.gather_nothing .hues c
      | some a => exact Atom.isColorless_layout (colorless a rfl) s
    obtain ⟨steps, placed⟩ := c.exists_places _ _
    show (c.place _ _).1.IsColorless
    rw [placed]
    exact (laid _).places steps

end Icon

namespace Formula

open Icon

/-- The innermost color wins. Whatever box is made of an atom and however it is placed, painting
it comes to the glyphs of the characters of the atom in order, and draws each in the foreground of
the innermost color node around the character that has one, or else in the color that the pen had.
So the icon of a formula without color is drawn in one color: the foreground that it is given, or
black. -/
theorem paint_innermost_color :
    (∀ (a : Atom Float32) (s : Setting Float32) (steps : List (Box.Placement Float32))
        (x y : Float32) (g : Recording Float32 Float),
      let b := steps.foldl Box.place (a.layout s).box
      ∃ visits : List (Box.Visit Float32 Float), visits.map Box.Visit.box = b.visits ∧
        (b.paint x y g).commands = g.commands ++ visits.flatMap Box.Visit.commands ∧
        List.Forall₂ Box.Visit.Shows (visits.filter (·.box.char?.isSome))
          (a.shades g.pen.color)) ∧
      ∀ (f : Formula) (c : Config Float32) (built : Built Float32), f.icon c = .ok built →
        (∀ root ∈ f.root, root.hasColor = false) →
        ∀ (foreground : Option Color) (x y : Float) (g : Recording Float32 Float),
          ∃ drawn, ((built.icon.withForeground foreground).paint x y g).commands =
              g.commands ++ drawn ∧
            ∀ command ∈ drawn, command.pen.color = foreground.getD .black := by
  refine ⟨fun a s steps x y g => a.paint_shades s steps x y g, ?_⟩
  intro f c built builds colorless foreground x y g
  have plain := Config.isColorless_build (mapError_ok.mp builds) colorless
  exact (built.icon.withForeground foreground).commands_paint plain x y g

/-- A letter, and a fraction in red with a denominator in blue on white; and a letter that a formula
without color holds. -/
theorem paint_innermost_color_nested :
    let a : Atom Float32 :=
      .row [.char 'a', .color none (some .red)
        (.fraction (.char 'b') (.color (some .white) (some .blue) (.char 'c')))]
    let c : Config Float32 :=
      { style := some .display, size := some (Scalar.whole 20), pixelsPerPoint := Scalar.whole 1 }
    let f : Formula := Formula.empty.add (.char 'a')
    (∀ (s : Setting Float32) (x y : Float32) (g : Recording Float32 Float),
      ∃ visits : List (Box.Visit Float32 Float),
        visits.map Box.Visit.box = (a.layout s).box.visits ∧
        ((a.layout s).box.paint x y g).commands =
          g.commands ++ visits.flatMap Box.Visit.commands ∧
        List.Forall₂ Box.Visit.Shows (visits.filter (·.box.char?.isSome))
          [(g.pen.color, 'a'), (.red, 'b'), (.blue, 'c')]) ∧
      ∃ built, f.icon c = .ok built ∧ (∀ root ∈ f.root, root.hasColor = false) ∧
        ∀ (foreground : Option Color) (x y : Float) (g : Recording Float32 Float),
          ∃ drawn, ((built.icon.withForeground foreground).paint x y g).commands =
              g.commands ++ drawn ∧
            ∀ command ∈ drawn, command.pen.color = foreground.getD .black := by
  intro a c f
  have size : Config.isPositive (Scalar.whole 20 : Float32) = true := by decide +kernel
  have pixels : Config.isPositive (Scalar.whole 1 : Float32) = true := by decide +kernel
  have scale : ¬(Scalar.whole Config.mostPixelsPerEm : Float) <
      Widening.widen (Scalar.whole 20 : Float32) * Widening.widen (Scalar.whole 1 : Float32) := by
    decide +kernel
  have valid : c.validate = .ok (.display, Scalar.whole 20) := by
    simp [Config.validate, c, size, pixels, scale]
  obtain ⟨built, builds, -⟩ := Config.glyphs_build valid f.root (f.textStyle.map TextStyle.font)
  have icon : f.icon c = .ok built := mapError_ok.mpr builds
  have colorless : ∀ root ∈ f.root, root.hasColor = false := by
    rintro root ⟨⟩
    rfl
  exact ⟨fun s x y g => paint_innermost_color.1 a s [] x y g, built, icon, colorless,
    paint_innermost_color.2 f c built icon colorless⟩

end Formula

end FormulaInk
