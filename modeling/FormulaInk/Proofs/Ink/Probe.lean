import FormulaInk.Proofs.Ink.Glyphs

/-! What painting makes of a box: its character if it is a glyph, its colors, and the color that
comes to it from the box around it. A probe reads something off each box that painting comes to, and
`gather` collects it. Most operations on boxes put boxes together and add space, rules and frames
without colors, which no probe sees. -/

namespace FormulaInk

/-- The character of a box, if it is a glyph, and its colors. -/
structure Mark where
  char : Option Char := none
  foreground : Option Color := none
  background : Option Color := none

namespace Mark

/-- The mark with colors where it has none of its own. -/
def colored (m : Mark) (foreground background : Option Color) : Mark :=
  { m with
    foreground := m.foreground <|> foreground
    background := m.background <|> background }

end Mark

/-- What is read off the marks of boxes, each under the color that comes to the box. There is
nothing to read off a box that is no glyph and has no colors. -/
structure Probe (β : Type) where
  see : Color → Mark → List β
  quiet : ∀ c, see c {} = []

namespace Probe

attribute [simp] quiet

/-- The characters. -/
def chars : Probe Char := ⟨fun _ m => m.char.toList, fun _ => rfl⟩

/-- The characters with the colors that their ink has. -/
def shades : Probe (Color × Char) :=
  ⟨fun c m => m.char.toList.map ((m.foreground.getD c, ·)), fun _ => rfl⟩

/-- The colors that boxes have of their own. -/
def hues : Probe Color := ⟨fun _ m => m.foreground.toList ++ m.background.toList, fun _ => rfl⟩

/-- What a probe sees of a character without colors of its own. -/
def seeChar {β : Type} (p : Probe β) (shade : Color × Char) : List β :=
  p.see shade.1 { char := some shade.2 }

/-- A foreground that a mark lacks counts as a color that comes to it, and no background counts. -/
def Tints {β : Type} (p : Probe β) : Prop :=
  ∀ c m foreground background,
    p.see c (m.colored foreground background) = p.see (foreground.getD c) m

/-- There is nothing to read off a box that is no glyph. -/
def SeesChars {β : Type} (p : Probe β) : Prop := ∀ c m, m.char = none → p.see c m = []

theorem tints_chars : chars.Tints := fun _ _ _ _ => rfl

theorem tints_shades : shades.Tints := by
  intro c m foreground background
  simp [shades, Mark.colored]

theorem seesChars_chars : chars.SeesChars := by
  intro c m none
  simp [chars, none]

theorem seesChars_shades : shades.SeesChars := by
  intro c m none
  simp [shades, none]

end Probe

namespace Box

section Gather

variable {α β : Type}

mutual

/-- The visits to a box under a color, each with the color that comes to it: the foreground of the
nearest box around it that has one. -/
def tinted (c : Color) (b : Box α) : List (Color × Box α) :=
  (c, b) ::
    match b with
    | horizontal o children _ | vertical o children => allTinted (o.foreground.getD c) children
    | framed o _ _ base | oval o _ _ base | circled o _ base | rotated o _ _ base
    | scaled o _ _ base => tinted (o.foreground.getD c) base
    | strut _ | glyph .. | rule _ | radicalSign .. => []

def allTinted (c : Color) : List (Box α) → List (Color × Box α)
  | [] => []
  | b :: rest => tinted c b ++ allTinted c rest

end

/-- The boxes right inside a box. -/
def contents : Box α → List (Box α)
  | horizontal _ children _ | vertical _ children => children
  | framed _ _ _ base | oval _ _ _ base | circled _ _ base | rotated _ _ _ base
  | scaled _ _ _ base => [base]
  | strut _ | glyph .. | rule _ | radicalSign .. => []

/-- The mark of a box. -/
def mark (b : Box α) : Mark := ⟨b.char?, b.foreground, b.background⟩

/-- What a probe reads off a box and everything in it under a color. -/
def gather (p : Probe β) (c : Color) (b : Box α) : List β :=
  (b.tinted c).flatMap fun v => p.see v.1 v.2.mark

theorem allTinted_eq_flatMap (c : Color) (boxes : List (Box α)) :
    allTinted c boxes = boxes.flatMap (tinted c) := by
  induction boxes with
  | nil => rfl
  | cons b rest ih => rw [allTinted, ih, List.flatMap_cons]

theorem tinted_eq (c : Color) (b : Box α) :
    b.tinted c = (c, b) :: b.contents.flatMap (tinted (b.foreground.getD c)) := by
  cases b <;> simp [tinted, contents, allTinted_eq_flatMap, foreground, outline]

mutual

theorem map_tinted (c : Color) (b : Box α) : (b.tinted c).map Prod.snd = b.visits := by
  match b with
  | strut _ | glyph .. | rule _ | radicalSign .. => rfl
  | horizontal o children _ | vertical o children =>
    exact congrArg (List.cons _) (map_allTinted (o.foreground.getD c) children)
  | framed o _ _ base | oval o _ _ base | circled o _ base | rotated o _ _ base
  | scaled o _ _ base => exact congrArg (List.cons _) (map_tinted (o.foreground.getD c) base)

theorem map_allTinted (c : Color) (boxes : List (Box α)) :
    (allTinted c boxes).map Prod.snd = allVisits boxes := by
  match boxes with
  | [] => rfl
  | b :: rest => rw [allTinted, List.map_append, map_tinted c b, map_allTinted c rest, allVisits]

end

/-- The glyphs of a box are its characters, whatever color comes to it. -/
theorem glyphs_eq_gather (c : Color) (b : Box α) : b.glyphs = b.gather .chars c := by
  rw [glyphs, ← map_tinted c b, List.filterMap_map, gather]
  induction b.tinted c with
  | nil => rfl
  | cons v rest ih =>
    rw [List.flatMap_cons, ← ih, List.filterMap_cons]
    cases h : char? v.2 <;> simp [Probe.chars, mark, h]

/-- A probe reads off a box what it sees of the box itself, and then what it reads off what is right
inside, under the foreground of the box or else the color that came to it. -/
theorem gather_eq (p : Probe β) (c : Color) (b : Box α) :
    b.gather p c = p.see c b.mark ++ b.contents.flatMap (gather p (b.foreground.getD c)) := by
  rw [gather, tinted_eq, List.flatMap_cons, List.flatMap_assoc]
  rfl

/-- A box without a mark only holds what is in it. -/
theorem gather_of_unmarked {b : Box α} (h : b.mark = {}) (p : Probe β) (c : Color) :
    b.gather p c = b.contents.flatMap (gather p c) := by
  have colorless : b.foreground = none := congrArg Mark.foreground h
  rw [gather_eq, h, p.quiet, colorless, List.nil_append, Option.getD_none]

theorem gather_of_single {b base : Box α} (unmarked : b.mark = {}) (single : b.contents = [base])
    (p : Probe β) (c : Color) : b.gather p c = base.gather p c := by
  rw [gather_of_unmarked unmarked, single, List.flatMap_singleton]

@[simp] theorem contents_withOutline (o : Outline α) (b : Box α) :
    (b.withOutline o).contents = b.contents := by
  cases b <;> rfl

@[simp] theorem char?_withOutline (o : Outline α) (b : Box α) :
    (b.withOutline o).char? = b.char? := by
  cases b <;> rfl

@[simp] theorem gather_withShift (p : Probe β) (c : Color) (b : Box α) (shift : α) :
    (b.withShift shift).gather p c = b.gather p c := by
  rw [gather_eq, gather_eq p c b]
  simp [withShift, mark, foreground, background]

theorem mark_colored (b : Box α) (fore back : Option Color) :
    (b.colored fore back).mark = b.mark.colored fore back := by
  simp [mark, Mark.colored, colored, withColors, foreground, background]

/-- To color a box from outside is to let the foreground come to it. -/
theorem gather_colored {p : Probe β} (tints : p.Tints) (c : Color) (b : Box α)
    (fore back : Option Color) :
    (b.colored fore back).gather p c = b.gather p (fore.getD c) := by
  have inside : (b.colored fore back).foreground.getD c = b.foreground.getD (fore.getD c) := by
    simp [colored, withColors, foreground]
  have same : (b.colored fore back).contents = b.contents := contents_withOutline _ b
  rw [gather_eq, gather_eq p _ b, mark_colored, tints, inside, same]

theorem sizeOf_lt_of_mem_contents {b inner : Box α} (h : inner ∈ b.contents) :
    sizeOf inner < sizeOf b := by
  cases b with
  | horizontal o children breaks =>
    have := List.sizeOf_lt_of_mem (show inner ∈ children from h)
    simp only [horizontal.sizeOf_spec]
    omega
  | vertical o children =>
    have := List.sizeOf_lt_of_mem (show inner ∈ children from h)
    simp only [vertical.sizeOf_spec]
    omega
  | framed | oval | circled | rotated | scaled =>
    obtain rfl := List.mem_singleton.mp h
    simp +arith
  | _ => simp [contents] at h

/-- There is no color in a box. -/
def IsColorless (b : Box α) : Prop := ∀ c, b.gather .hues c = []

namespace IsColorless

variable {b : Box α}

theorem colors_eq_none (plain : b.IsColorless) : b.foreground = none ∧ b.background = none := by
  have hues := plain .black
  rw [gather_eq, List.append_eq_nil_iff] at hues
  have own := List.append_eq_nil_iff.mp hues.1
  simpa [mark] using own

theorem of_mem_contents (plain : b.IsColorless) {inner : Box α} (h : inner ∈ b.contents) :
    inner.IsColorless := by
  intro c
  have hues := plain c
  rw [gather_eq, List.append_eq_nil_iff, plain.colors_eq_none.1, Option.getD_none] at hues
  exact List.flatMap_eq_nil_iff.mp hues.2 inner h

/-- The color that comes to a box without color comes to everything in it. -/
theorem of_mem_tinted {b : Box α} (plain : b.IsColorless) {c : Color} {v : Color × Box α}
    (hv : v ∈ b.tinted c) : v.1 = c ∧ v.2.IsColorless := by
  rw [tinted_eq, plain.colors_eq_none.1, Option.getD_none] at hv
  obtain rfl | hv := List.mem_cons.mp hv
  · exact ⟨rfl, plain⟩
  · obtain ⟨inner, inside, hv⟩ := List.mem_flatMap.mp hv
    have smaller := sizeOf_lt_of_mem_contents inside
    exact (plain.of_mem_contents inside).of_mem_tinted hv
termination_by sizeOf b

end IsColorless

theorem mem_contents_of_mem_children {b child : Box α} (h : child ∈ b.children) :
    child ∈ b.contents := by
  cases b with
  | horizontal _ _ _ | vertical _ _ => exact h
  | _ => simp [children] at h

end Gather

section Composed

variable {α β : Type} [Scalar α] (p : Probe β) (c : Color)

@[simp] theorem gather_space (width height depth : α) :
    (space width height depth).gather p c = [] :=
  gather_of_unmarked rfl p c

@[simp] theorem gather_kern (width : α) : (kern width).gather p c = [] := gather_space p c _ _ _

@[simp] theorem gather_nothing : (nothing : Box α).gather p c = [] := gather_kern p c _

@[simp] theorem gather_bar (width height depth : α) : (bar width height depth).gather p c = [] :=
  gather_of_unmarked rfl p c

@[simp] theorem gather_radical (width height depth thickness : α) :
    (radical width height depth thickness).gather p c = [] :=
  gather_of_unmarked rfl p c

@[simp] theorem gather_ofChar (ch : Char) (width height depth thickness : α) :
    (ofChar ch width height depth thickness).gather p c = p.seeChar (c, ch) := by
  rw [gather_eq]
  exact List.append_nil _

@[simp] theorem gather_row (children : List (Box α)) (breaks : List Nat) :
    (row children breaks).gather p c = children.flatMap (gather p c) :=
  gather_of_unmarked rfl p c

@[simp] theorem gather_hbox (children : List (Box α)) :
    (hbox children).gather p c = children.flatMap (gather p c) :=
  gather_row p c children []

@[simp] theorem gather_stack (children : List (Box α)) (height : α) :
    (stack children height).gather p c = children.flatMap (gather p c) :=
  gather_of_unmarked rfl p c

@[simp] theorem gather_frame (base : Box α) (thickness space : α) :
    (base.frame thickness space).gather p c = base.gather p c :=
  gather_of_single rfl rfl p c

@[simp] theorem gather_ovalFrame (base : Box α) (thickness space : α) :
    (base.ovalFrame thickness space).gather p c = base.gather p c :=
  gather_of_single rfl rfl p c

@[simp] theorem gather_circle (base : Box α) (thickness space : α) :
    (base.circle thickness space).gather p c = base.gather p c :=
  gather_of_single rfl rfl p c

@[simp] theorem gather_rotate (base : Box α) (degrees : α) :
    (base.rotate degrees).gather p c = base.gather p c :=
  gather_of_single rfl rfl p c

@[simp] theorem gather_scale (base : Box α) (x y : α) :
    (base.scale x y).gather p c = base.gather p c := by
  unfold scale
  dsimp only
  split
  · exact gather_of_single rfl rfl p c
  · exact gather_of_single rfl rfl p c

/-- Alignment puts space beside a box, or leaves it alone in its row. -/
@[simp] theorem gather_aligned (inner : Box α) (width : α) (align : Alignment) :
    (inner.aligned width align).gather p c = inner.gather p c := by
  unfold aligned
  dsimp only
  split
  · simp
  · cases align <;> simp

end Composed

end Box

end FormulaInk
