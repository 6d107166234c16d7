import FormulaInk.Box.Paint
import FormulaInk.Proofs.Ink.Probe

/-! Painting a box comes to everything in it once, in the order of `Box.visits`, and draws nothing
else: the commands of a picture are those of the visits, one visit after the other. A visit finds
the pen in the color that `Box.tinted` tells, and apart from the background of its box it draws in
the foreground of the box or else in that color. -/

namespace FormulaInk

namespace Recording

variable {α δ : Type}

/-- Acts that add commands behind those of the picture, and look at nothing in it but the pen. -/
def Adds (act : Recording α δ → Recording α δ) : Prop :=
  ∀ g, act g = ⟨g.commands ++ (act ⟨[], g.pen⟩).commands, (act ⟨[], g.pen⟩).pen⟩

theorem Adds.comp {first second : Recording α δ → Recording α δ} (h : Adds first)
    (k : Adds second) : Adds fun g => second (first g) := by
  intro g
  have before := h g
  have after := k (first ⟨[], g.pen⟩)
  dsimp only
  rw [before, k, after]
  simp only [List.append_assoc]

theorem adds_draw (shape : Shape α) : Adds fun g : Recording α δ => g.draw shape := fun _ => rfl

theorem adds_withStroke (stroke : Stroke α) : Adds fun g : Recording α δ => g.withStroke stroke := by
  intro g
  simp [withStroke]

theorem adds_foldl_draw (shapes : List (Shape α)) :
    Adds fun g : Recording α δ => shapes.foldl draw g := by
  induction shapes with
  | nil =>
    intro g
    simp
  | cons shape rest ih => exact (adds_draw shape).comp ih

/-- Acts that draw in the color of the pen, and leave the pen in it. -/
def Inks (act : Recording α δ → Recording α δ) : Prop :=
  ∀ g, (act g).pen.color = g.pen.color ∧
    ∃ ink, (act g).commands = g.commands ++ ink ∧ ∀ command ∈ ink, command.pen.color = g.pen.color

theorem Inks.comp {first second : Recording α δ → Recording α δ} (h : Inks first)
    (k : Inks second) : Inks fun g => second (first g) := by
  intro g
  obtain ⟨color, ink, drawn, inked⟩ := h g
  obtain ⟨color', more, after, inked'⟩ := k (first g)
  refine ⟨color'.trans color, ink ++ more, by rw [after, drawn, List.append_assoc], ?_⟩
  intro command hc
  obtain hc | hc := List.mem_append.mp hc
  · exact inked command hc
  · exact (inked' command hc).trans color

theorem inks_id : Inks fun g : Recording α δ => g := fun g => ⟨rfl, [], by simp⟩

theorem inks_draw (shape : Shape α) : Inks fun g : Recording α δ => g.draw shape :=
  fun _ => ⟨rfl, _, rfl, by simp⟩

theorem inks_withStroke (stroke : Stroke α) : Inks fun g : Recording α δ => g.withStroke stroke :=
  fun g => ⟨rfl, [], by simp [withStroke]⟩

theorem inks_foldl_draw (shapes : List (Shape α)) :
    Inks fun g : Recording α δ => shapes.foldl draw g := by
  induction shapes with
  | nil => exact inks_id
  | cons shape rest ih => exact (inks_draw shape).comp ih

end Recording

namespace Box

open Recording

variable {α δ : Type} [Scalar α]

/-- What is drawn for a box itself, before its parts. -/
def drawSelf (b : Box α) (x y : α) (g : Recording α δ) : Recording α δ :=
  match b with
  | strut o | horizontal o .. | vertical o .. | rotated o .. | scaled o .. => paintColors o x y g
  | glyph o _ shape thickness => paintGlyph o shape thickness x y (paintColors o x y g)
  | rule o => (paintColors o x y g).draw (.fillRect (area o x y))
  | radicalSign o thickness => paintRadical o thickness x y (paintColors o x y g)
  | framed o thickness .. =>
    ((paintColors o x y g).withStroke (.ofWidth thickness)).draw
      (.drawRect (frameArea o thickness x y))
  | oval o thickness .. => paintOval o thickness x y (paintColors o x y g)
  | circled o thickness _ =>
    ((paintColors o x y g).withStroke (.ofWidth thickness)).draw
      (.drawEllipse (frameArea o thickness x y))

theorem adds_paintColors (o : Outline α) (x y : α) :
    Adds fun g : Recording α δ => paintColors o x y g := by
  intro g
  cases back : o.background <;> cases fore : o.foreground <;>
    simp [paintColors, back, fore, draw, withColor]

theorem adds_paintGlyph (o : Outline α) (shape : GlyphShape) (thickness x y : α) :
    Adds fun g : Recording α δ => paintGlyph o shape thickness x y g := by
  intro g
  by_cases flat : o.width ≤ Scalar.whole 0 ∨ o.height + o.depth ≤ Scalar.whole 0
  · simp [paintGlyph, flat]
  · simpa [paintGlyph, flat] using
      (adds_withStroke _).comp (adds_foldl_draw (glyphShapes o shape x y)) g

theorem adds_drawSelf (b : Box α) (x y : α) : Adds fun g : Recording α δ => b.drawSelf x y g := by
  cases b with
  | strut o | horizontal o _ _ | vertical o _ | rotated o _ _ _ | scaled o _ _ _ =>
    exact adds_paintColors o x y
  | glyph o _ shape thickness =>
    exact (adds_paintColors o x y).comp (adds_paintGlyph o shape thickness x y)
  | rule o => exact (adds_paintColors o x y).comp (adds_draw _)
  | radicalSign o thickness =>
    exact (((adds_paintColors o x y).comp (adds_withStroke _)).comp (adds_draw _)).comp (adds_draw _)
  | framed o _ _ _ | oval o _ _ _ | circled o _ _ =>
    exact ((adds_paintColors o x y).comp (adds_withStroke _)).comp (adds_draw _)

/-- A box at the point and under the pen that it is painted with. -/
structure Visit (α δ : Type) where
  box : Box α
  x : α
  y : α
  pen : Pen α δ

/-- What is drawn at a visit. -/
def Visit.commands (v : Visit α δ) : List (Command α δ) :=
  (v.box.drawSelf v.x v.y ⟨[], v.pen⟩).commands

theorem commands_drawSelf (b : Box α) (x y : α) (g : Recording α δ) :
    (b.drawSelf x y g).commands = g.commands ++ Visit.commands ⟨b, x, y, g.pen⟩ :=
  congrArg Recording.commands (adds_drawSelf b x y g)

theorem inks_paintGlyph (o : Outline α) (shape : GlyphShape) (thickness x y : α) :
    Inks fun g : Recording α δ => paintGlyph o shape thickness x y g := by
  by_cases flat : o.width ≤ Scalar.whole 0 ∨ o.height + o.depth ≤ Scalar.whole 0
  · simpa [paintGlyph, flat] using inks_id
  · simpa [paintGlyph, flat] using
      (inks_withStroke _).comp (inks_foldl_draw (glyphShapes o shape x y))

/-- A box fills its background and takes its foreground, and then it draws in it. -/
theorem exists_inks (b : Box α) (x y : α) :
    ∃ act, Inks act ∧
      ∀ g : Recording α δ, b.drawSelf x y g = act (paintColors b.outline x y g) := by
  cases b with
  | strut | horizontal | vertical | rotated | scaled => exact ⟨_, inks_id, fun _ => rfl⟩
  | glyph o _ shape thickness => exact ⟨_, inks_paintGlyph o shape thickness x y, fun _ => rfl⟩
  | rule o => exact ⟨_, inks_draw _, fun _ => rfl⟩
  | radicalSign o thickness =>
    exact ⟨_, ((inks_withStroke _).comp (inks_draw _)).comp (inks_draw _), fun _ => rfl⟩
  | framed o _ _ _ | oval o _ _ _ | circled o _ _ =>
    exact ⟨_, (inks_withStroke _).comp (inks_draw _), fun _ => rfl⟩

/-- The background of a visited box. -/
def Visit.fill (v : Visit α δ) : List (Command α δ) :=
  v.box.background.toList.map fun color =>
    ⟨.fillRect (area v.box.outline v.x v.y), { v.pen with color }⟩

/-- The foreground of a box is the color for everything in it. -/
theorem color_paintColors (o : Outline α) (x y : α) {g : Recording α δ} {c : Color}
    (color : g.pen.color = c) : (paintColors o x y g).pen.color = o.foreground.getD c := by
  cases back : o.background <;> cases fore : o.foreground <;>
    simp [paintColors, back, fore, draw, withColor, color]

/-- At a visit the background is filled, and everything else is drawn in the foreground of the box
or else in the color of the pen. -/
theorem Visit.exists_ink (v : Visit α δ) :
    ∃ ink, v.commands = v.fill ++ ink ∧
      ∀ command ∈ ink, command.pen.color = v.box.foreground.getD v.pen.color := by
  obtain ⟨act, inks, draws⟩ := exists_inks (δ := δ) v.box v.x v.y
  obtain ⟨-, ink, drawn, inked⟩ := inks (paintColors v.box.outline v.x v.y ⟨[], v.pen⟩)
  have fill : (paintColors v.box.outline v.x v.y ⟨[], v.pen⟩).commands = v.fill := by
    cases back : v.box.outline.background <;> cases fore : v.box.outline.foreground <;>
      simp [paintColors, Visit.fill, background, back, fore, draw, withColor]
  refine ⟨ink, by rw [Visit.commands, draws, drawn, fill], fun command hc => ?_⟩
  exact (inked command hc).trans (color_paintColors _ _ _ rfl)

/-- One picture follows from another by visits to the boxes, in their order. -/
def Paints (boxes : List (Box α)) (g g' : Recording α δ) : Prop :=
  ∃ visits : List (Visit α δ), visits.map Visit.box = boxes ∧
    g'.commands = g.commands ++ visits.flatMap Visit.commands

/-- One picture follows from another by visits to the boxes, each under its color. -/
def Draws (tinted : List (Color × Box α)) (g g' : Recording α δ) : Prop :=
  ∃ visits : List (Visit α δ), visits.map (fun v => (v.pen.color, v.box)) = tinted ∧
    g'.commands = g.commands ++ visits.flatMap Visit.commands

namespace Draws

theorem refl (g : Recording α δ) : Draws [] g g := ⟨[], rfl, by simp⟩

theorem trans {boxes more : List (Color × Box α)} {g g' g'' : Recording α δ}
    (h : Draws boxes g g') (k : Draws more g' g'') : Draws (boxes ++ more) g g'' := by
  obtain ⟨visits, rfl, drawn⟩ := h
  obtain ⟨later, rfl, after⟩ := k
  refine ⟨visits ++ later, List.map_append, ?_⟩
  rw [after, drawn, List.flatMap_append, List.append_assoc]

/-- A box draws itself, and then come the boxes of its parts; only the pen changes between. -/
theorem cons {b : Box α} {x y : α} {c : Color} {boxes : List (Color × Box α)}
    {g g' g'' : Recording α δ} (color : g.pen.color = c)
    (between : g'.commands = (b.drawSelf x y g).commands) (h : Draws boxes g' g'') :
    Draws ((c, b) :: boxes) g g'' := by
  obtain ⟨visits, rfl, drawn⟩ := h
  obtain rfl := color
  refine ⟨⟨b, x, y, g.pen⟩ :: visits, rfl, ?_⟩
  rw [drawn, between, commands_drawSelf, List.flatMap_cons, List.append_assoc]

theorem paints {boxes : List (Color × Box α)} {g g' : Recording α δ} (h : Draws boxes g g') :
    Paints (boxes.map Prod.snd) g g' := by
  obtain ⟨visits, rfl, drawn⟩ := h
  exact ⟨visits, by rw [List.map_map]; rfl, drawn⟩

end Draws

variable [Scalar δ] [Widening α δ]

/-- Painting takes back the pen that it found. -/
theorem pen_paint (b : Box α) (x y : α) (g : Recording α δ) : (b.paint x y g).pen = g.pen := by
  cases b <;> rfl

-- The color is a variable with an equation: the pen that comes to the parts of a box differs from
-- that of the box in its stroke and its transform too, and only the color is told.
mutual

/-- Painting a box draws the box and everything in it, each once, in the order of `visits` and under
the color that comes to it. -/
theorem draws (b : Box α) (x y : α) {g : Recording α δ} {c : Color} (color : g.pen.color = c) :
    Draws (b.tinted c) g (b.paint x y g) := by
  match b with
  | strut _ | glyph .. | rule _ | radicalSign .. =>
    exact .cons (x := x) (y := y) color rfl (.refl _)
  | horizontal o children _ =>
    exact .cons color rfl (draws_row children _ _ (color_paintColors o x y color))
  | vertical o children =>
    exact .cons color rfl (draws_stack children _ _ (color_paintColors o x y color))
  | framed o _ _ base | oval o _ _ base | circled o _ base | rotated o _ _ base
  | scaled o _ _ base =>
    have inside := color_paintColors o x y color
    exact .cons color rfl (draws base _ _ inside)

theorem draws_row (children : List (Box α)) (x y : α) {g : Recording α δ} {c : Color}
    (color : g.pen.color = c) : Draws (allTinted c children) g (paintRow children x y g) := by
  match children with
  | [] => exact .refl g
  | b :: rest =>
    have back : (b.paint x (y + b.shift) g).pen.color = c := by rw [pen_paint, color]
    exact (draws b _ _ color).trans (draws_row rest _ _ back)

theorem draws_stack (children : List (Box α)) (x y : α) {g : Recording α δ} {c : Color}
    (color : g.pen.color = c) : Draws (allTinted c children) g (paintStack children x y g) := by
  match children with
  | [] => exact .refl g
  | b :: rest =>
    have back : (b.paint (x + b.shift) (y + b.height) g).pen.color = c := by rw [pen_paint, color]
    exact (draws b _ _ color).trans (draws_stack rest _ _ back)

end

/-- Painting a box draws the box and everything in it, each once and in the order of `visits`. -/
theorem paints (b : Box α) (x y : α) (g : Recording α δ) : Paints b.visits g (b.paint x y g) := by
  rw [← map_tinted g.pen.color b]
  exact (draws b x y rfl).paints

end Box

end FormulaInk
