import FormulaInk.Proofs.Ink.Painting

/-! Painting as visits to parts. What a box appends to a picture depends on the picture only through
its pen: the ink of the visit. It is what is drawn for the box itself, and then the ink of the visits
to its parts, each at its own place and under the pen that the box took for them. -/

namespace FormulaInk

variable {α δ : Type}

/-- The pen for everything in a box. -/
def Pen.inside (pen : Pen α δ) (o : Outline α) : Pen α δ :=
  { pen with color := o.foreground.getD pen.color }

namespace Recording

theorem Adds.guarded {act : Recording α δ → Recording α δ} (h : Adds act) :
    Adds fun g : Recording α δ => g.guarded act := by
  intro g
  show (act g).withPen g.pen = _
  rw [h g]
  rfl

theorem adds_id : Adds fun g : Recording α δ => g := by
  intro g
  simp

theorem adds_withTransform (f : Transform δ → Transform δ) :
    Adds fun g : Recording α δ => g.withTransform (f g.pen.transform) := by
  intro g
  simp [withTransform]

theorem commands_foldl_draw (shapes : List (Shape α)) (g : Recording α δ) :
    (shapes.foldl draw g).commands = g.commands ++ shapes.map fun shape => ⟨shape, g.pen⟩ := by
  induction shapes generalizing g with
  | nil => simp
  | cons shape rest ih =>
    rw [List.foldl_cons, ih]
    simp [draw]

end Recording

namespace Box

open Recording

theorem visits_eq (b : Box α) : b.visits = b :: b.contents.flatMap visits := by
  have same := congrArg (List.map Prod.snd) (tinted_eq .black b)
  rw [map_tinted] at same
  rw [same, List.map_cons, List.map_flatMap]
  simp only [map_tinted]

variable [Scalar α]

/-- The visits to the parts of a row: one begins where the one before it ends. -/
def rowVisits (pen : Pen α δ) : List (Box α) → α → α → List (Visit α δ)
  | [], _, _ => []
  | c :: rest, x, y => ⟨c, x, y + c.shift, pen⟩ :: rowVisits pen rest (x + c.width) y

/-- The visits to the parts of a stack: one begins below the one before it. -/
def stackVisits (pen : Pen α δ) : List (Box α) → α → α → List (Visit α δ)
  | [], _, _ => []
  | c :: rest, x, y =>
    ⟨c, x + c.shift, y + c.height, pen⟩ :: stackVisits pen rest x (y + c.height + c.depth)

@[simp] theorem map_box_rowVisits (pen : Pen α δ) (children : List (Box α)) (x y : α) :
    (rowVisits pen children x y).map Visit.box = children := by
  induction children generalizing x with
  | nil => rfl
  | cons c rest ih => rw [rowVisits, List.map_cons, ih]

@[simp] theorem map_box_stackVisits (pen : Pen α δ) (children : List (Box α)) (x y : α) :
    (stackVisits pen children x y).map Visit.box = children := by
  induction children generalizing y with
  | nil => rfl
  | cons c rest ih => rw [stackVisits, List.map_cons, ih]

theorem paintColors_eq (b : Box α) (x y : α) (g : Recording α δ) :
    paintColors b.outline x y g =
      ⟨g.commands ++ Visit.fill ⟨b, x, y, g.pen⟩, g.pen.inside b.outline⟩ := by
  cases back : b.outline.background <;> cases fore : b.outline.foreground <;>
    simp [paintColors, Visit.fill, Pen.inside, background, back, fore, draw, withColor]

theorem pen_paintColors (o : Outline α) (x y : α) (g : Recording α δ) :
    (paintColors o x y g).pen = g.pen.inside o :=
  congrArg Recording.pen (paintColors_eq (strut o) x y g)

/-- The shapes that a box draws itself, beside its background. -/
def ownShapes (b : Box α) (x y : α) : List (Shape α) :=
  match b with
  | strut _ | horizontal .. | vertical .. | rotated .. | scaled .. => []
  | glyph o _ shape _ =>
    if o.width ≤ Scalar.whole 0 ∨ o.height + o.depth ≤ Scalar.whole 0 then []
    else glyphShapes o shape x y
  | rule o => [.fillRect (area o x y)]
  | radicalSign o thickness =>
    let top := y - o.height + thickness / Scalar.whole 2
    let bottom := y + o.depth
    let knee := x + o.width * Scalar.ratio 35 100
    let start := bottom - (o.height + o.depth) * Scalar.ratio 4 10
    [.line x start knee bottom, .line knee bottom (x + o.width) top]
  | framed o thickness _ _ => [.drawRect (frameArea o thickness x y)]
  | oval o thickness _ _ =>
    let r := frameArea o thickness x y
    let arc := Scalar.ratio 5 10 * Scalar.min r.w r.h
    [.drawRoundRect r arc arc]
  | circled o thickness _ => [.drawEllipse (frameArea o thickness x y)]

/-- The stroke that a box draws its own shapes with, where it finds another one. -/
def ownStroke (b : Box α) (found : Stroke α) : Stroke α :=
  match b with
  | glyph _ _ _ thickness => .ofWidth (thickness * Scalar.ratio 15 10)
  | radicalSign _ thickness => (Stroke.ofWidth thickness).withCap .round
  | framed _ thickness .. | oval _ thickness .. | circled _ thickness _ => .ofWidth thickness
  | strut _ | rule _ | horizontal .. | vertical .. | rotated .. | scaled .. => found

/-- What is drawn at a visit: the background, and then the shapes of the box in its foreground. -/
theorem Visit.commands_eq (v : Visit α δ) :
    v.commands = v.fill ++ (v.box.ownShapes v.x v.y).map fun shape =>
      ⟨shape, { v.pen.inside v.box.outline with stroke := v.box.ownStroke v.pen.stroke }⟩ := by
  obtain ⟨b, x, y, pen⟩ := v
  have colors (o : Outline α) :
      paintColors o x y ⟨[], pen⟩ = ⟨Visit.fill ⟨strut o, x, y, pen⟩, pen.inside o⟩ :=
    paintColors_eq (strut o) x y ⟨[], pen⟩
  rw [Visit.commands]
  cases b with
  | glyph o ch shape thickness =>
    dsimp only
    rw [drawSelf, colors o, paintGlyph, ownShapes]
    split
    · exact (List.append_nil _).symm
    · rw [commands_foldl_draw]
      rfl
  | radicalSign o thickness =>
    dsimp only
    rw [drawSelf, colors o, paintRadical, ownShapes]
    exact List.append_assoc ..
  | strut o | horizontal o _ _ | vertical o _ | rotated o _ _ _ | scaled o _ _ _ =>
    dsimp only
    rw [drawSelf, colors o]
    exact (List.append_nil _).symm
  | rule o | framed o _ _ _ | oval o _ _ _ | circled o _ _ =>
    dsimp only [drawSelf, paintOval]
    rw [colors o]
    rfl

variable [Scalar δ] [Widening α δ]

mutual

theorem adds_paint (b : Box α) (x y : α) : Adds fun g : Recording α δ => b.paint x y g := by
  match b with
  | strut o => exact (adds_drawSelf (strut o) x y).guarded
  | glyph o ch shape thickness => exact (adds_drawSelf (glyph o ch shape thickness) x y).guarded
  | rule o => exact (adds_drawSelf (rule o) x y).guarded
  | radicalSign o thickness => exact (adds_drawSelf (radicalSign o thickness) x y).guarded
  | horizontal o children _ =>
    exact ((adds_paintColors o x y).comp (adds_paintRow children x y)).guarded
  | vertical o children =>
    exact ((adds_paintColors o x y).comp (adds_paintStack children x (y - o.height))).guarded
  | framed o thickness space base =>
    exact ((adds_drawSelf (framed o thickness space base) x y).comp (adds_paint base _ _)).guarded
  | oval o thickness space base =>
    exact ((adds_drawSelf (oval o thickness space base) x y).comp (adds_paint base _ _)).guarded
  | circled o thickness base =>
    exact ((adds_drawSelf (circled o thickness base) x y).comp (adds_paint base _ _)).guarded
  | rotated o radians offset base =>
    have turned := adds_withTransform (α := α) fun t => t.rotateAbout (Widening.widen radians)
      (Widening.widen (x + offset)) (Widening.widen y)
    exact (((adds_paintColors o x y).comp turned).comp (adds_paint base _ _)).guarded
  | scaled o sx sy base =>
    let dx := if sx < Scalar.whole 0 then o.width else Scalar.whole 0
    have moved := adds_withTransform (α := α) fun t =>
      t.translate (Widening.widen (x + dx)) (Widening.widen y)
    have stretched := adds_withTransform (α := α) fun t =>
      t.scale (Widening.widen sx) (Widening.widen sy)
    exact ((((adds_paintColors o x y).comp moved).comp stretched).comp (adds_paint base _ _)).guarded

theorem adds_paintRow (children : List (Box α)) (x y : α) :
    Adds fun g : Recording α δ => paintRow children x y g := by
  match children with
  | [] => exact adds_id
  | c :: rest => exact (adds_paint c _ _).comp (adds_paintRow rest _ _)

theorem adds_paintStack (children : List (Box α)) (x y : α) :
    Adds fun g : Recording α δ => paintStack children x y g := by
  match children with
  | [] => exact adds_id
  | c :: rest => exact (adds_paint c _ _).comp (adds_paintStack rest _ _)

end

/-- What a box appends when it is painted alone. -/
def Visit.ink (v : Visit α δ) : List (Command α δ) := (v.box.paint v.x v.y ⟨[], v.pen⟩).commands

/-- Painting takes back the pen that it found and keeps what was drawn. -/
theorem paint_eq (b : Box α) (x y : α) (g : Recording α δ) :
    b.paint x y g = ⟨g.commands ++ Visit.ink ⟨b, x, y, g.pen⟩, g.pen⟩ := by
  have added := adds_paint b x y g
  rwa [pen_paint] at added

theorem paintRow_eq (children : List (Box α)) (x y : α) (g : Recording α δ) :
    paintRow children x y g =
      ⟨g.commands ++ (rowVisits g.pen children x y).flatMap Visit.ink, g.pen⟩ := by
  induction children generalizing x g with
  | nil => simp [paintRow, rowVisits]
  | cons c rest ih => rw [paintRow, ih, paint_eq, rowVisits, List.flatMap_cons, List.append_assoc]

theorem paintStack_eq (children : List (Box α)) (x y : α) (g : Recording α δ) :
    paintStack children x y g =
      ⟨g.commands ++ (stackVisits g.pen children x y).flatMap Visit.ink, g.pen⟩ := by
  induction children generalizing y g with
  | nil => simp [paintStack, stackVisits]
  | cons c rest ih =>
    rw [paintStack, ih, paint_eq, stackVisits, List.flatMap_cons, List.append_assoc]

/-- The visits to the direct parts of a box. -/
def Visit.inner (v : Visit α δ) : List (Visit α δ) :=
  let pen := v.pen.inside v.box.outline
  match v.box with
  | strut _ | glyph .. | rule _ | radicalSign .. => []
  | horizontal _ children _ => rowVisits pen children v.x v.y
  | vertical o children => stackVisits pen children v.x (v.y - o.height)
  | framed _ thickness space base | oval _ thickness space base =>
    [⟨base, v.x + thickness + space, v.y, { pen with stroke := .ofWidth thickness }⟩]
  | circled o thickness base =>
    [⟨base, v.x + (o.width - base.width) / Scalar.whole 2, v.y,
      { pen with stroke := .ofWidth thickness }⟩]
  | rotated _ radians offset base =>
    [⟨base, v.x + offset, v.y,
      { pen with
        transform := pen.transform.rotateAbout (Widening.widen radians)
          (Widening.widen (v.x + offset)) (Widening.widen v.y) }⟩]
  | scaled o sx sy base =>
    let dx := if sx < Scalar.whole 0 then o.width else Scalar.whole 0
    [⟨base, Scalar.whole 0, Scalar.whole 0,
      { pen with
        transform :=
          (pen.transform.translate (Widening.widen (v.x + dx)) (Widening.widen v.y)).scale
            (Widening.widen sx) (Widening.widen sy) }⟩]

/-- A base is painted behind what is drawn already, under the pen that was taken for it. -/
theorem commands_base (base : Box α) {x y : α} {g : Recording α δ} {pen : Pen α δ}
    (taken : g.pen = pen) :
    (base.paint x y g).commands = g.commands ++ [⟨base, x, y, pen⟩].flatMap Visit.ink := by
  rw [paint_eq, taken, List.flatMap_singleton]

/-- The ink of a visit is that of the box itself and then that of the visits to its parts. -/
theorem Visit.ink_eq (v : Visit α δ) : v.ink = v.commands ++ v.inner.flatMap Visit.ink := by
  obtain ⟨b, x, y, pen⟩ := v
  have inside (o : Outline α) := pen_paintColors o x y (⟨[], pen⟩ : Recording α δ)
  cases b with
  | strut | glyph | rule | radicalSign => exact (List.append_nil _).symm
  | horizontal o children _ =>
    show (paintRow children x y (paintColors o x y ⟨[], pen⟩)).commands = _
    rw [paintRow_eq, inside]
    rfl
  | vertical o children =>
    show (paintStack children x (y - o.height) (paintColors o x y ⟨[], pen⟩)).commands = _
    rw [paintStack_eq, inside]
    rfl
  | framed o thickness _ base | oval o thickness _ base | circled o thickness base =>
    have stroked := congrArg
      (fun pen : Pen α δ => { pen with stroke := Stroke.ofWidth thickness }) (inside o)
    exact commands_base base stroked
  | rotated o radians offset base =>
    have turned := congrArg
      (fun pen : Pen α δ => { pen with
        transform := pen.transform.rotateAbout (Widening.widen radians)
          (Widening.widen (x + offset)) (Widening.widen y) }) (inside o)
    exact commands_base base turned
  | scaled o sx sy base =>
    have stretched := congrArg
      (fun pen : Pen α δ => { pen with
        transform :=
          (pen.transform.translate (Widening.widen
            (x + if sx < Scalar.whole 0 then o.width else Scalar.whole 0)) (Widening.widen y)).scale
            (Widening.widen sx) (Widening.widen sy) }) (inside o)
    exact commands_base base stretched

/-- The direct parts of a box are visited, each once and in order. -/
theorem Visit.map_box_inner (v : Visit α δ) : v.inner.map Visit.box = v.box.contents := by
  obtain ⟨b, x, y, pen⟩ := v
  cases b with
  | horizontal => exact map_box_rowVisits ..
  | vertical => exact map_box_stackVisits ..
  | _ => rfl

theorem Visit.sizeOf_box_lt {v w : Visit α δ} (h : w ∈ v.inner) : sizeOf w.box < sizeOf v.box := by
  apply sizeOf_lt_of_mem_contents
  rw [← v.map_box_inner]
  exact List.mem_map_of_mem h

/-- What holds of a visit if it holds of the visits to its parts holds of every visit. -/
theorem Visit.induction {P : Visit α δ → Prop} (step : ∀ v, (∀ w ∈ v.inner, P w) → P v)
    (v : Visit α δ) : P v := by
  apply step
  intro w inside
  have smaller := Visit.sizeOf_box_lt inside
  exact Visit.induction step w
termination_by sizeOf v.box

/-- Painting leaves no state behind: the pen is as it was, and what was drawn before is kept. After
its background a row or a stack draws what its parts draw alone, each at its place and all of them
under the pen that the row or the stack takes for them. -/
theorem paint_parts (x y : α) (g : Recording α δ) :
    (∀ b : Box α, (b.paint x y g).pen = g.pen ∧
      (b.paint x y g).commands = g.commands ++ Visit.ink ⟨b, x, y, g.pen⟩) ∧
    (∀ (o : Outline α) (children : List (Box α)) (breaks : List Nat),
      Visit.ink ⟨horizontal o children breaks, x, y, g.pen⟩ =
        Visit.fill ⟨horizontal o children breaks, x, y, g.pen⟩ ++
          (rowVisits (g.pen.inside o) children x y).flatMap Visit.ink) ∧
    ∀ (o : Outline α) (children : List (Box α)),
      Visit.ink ⟨vertical o children, x, y, g.pen⟩ =
        Visit.fill ⟨vertical o children, x, y, g.pen⟩ ++
          (stackVisits (g.pen.inside o) children x (y - o.height)).flatMap Visit.ink := by
  refine ⟨?_, ?_, ?_⟩
  · intro b
    rw [paint_eq]
    exact ⟨rfl, rfl⟩
  · intro o children breaks
    rw [Visit.ink_eq, Visit.commands_eq, ownShapes, List.map_nil, List.append_nil]
    rfl
  · intro o children
    rw [Visit.ink_eq, Visit.commands_eq, ownShapes, List.map_nil, List.append_nil]
    rfl

end Box

end FormulaInk
