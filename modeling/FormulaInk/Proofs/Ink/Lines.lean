import FormulaInk.Proofs.Ink.Probe
import FormulaInk.Proofs.Lines.Partition

/-! Breaking a row into lines keeps what a probe reads off it: every line starts where the one
before it ends, and what is dropped at the start of a line is flat space, which has no character.
-/

namespace FormulaInk

/-- A range and what comes after it. -/
theorem Range.slice_append_drop {β : Type} {start cut : Nat} (h : start ≤ cut) (xs : List β) :
    Range.slice ⟨start, cut⟩ xs ++ xs.drop cut = xs.drop start := by
  have rest : xs.drop cut = (xs.drop start).drop (cut - start) := by
    rw [List.drop_drop, Nat.add_sub_cancel' h]
  rw [Range.slice, rest, List.take_append_drop]

namespace Lines

/-- Consecutive ranges hold what remains, each member in one of them and all in order. -/
theorem Consecutive.flatMap_slice {β : Type} {breaks : List Nat} {past start : Nat}
    {ranges : List Range} (h : Consecutive breaks past start ranges) {xs : List β}
    (length : xs.length = past) : ranges.flatMap (·.slice xs) = xs.drop start := by
  induction h with
  | last start =>
    have all : (xs.drop start).length ≤ past - start := by
      rw [List.length_drop, length]
    rw [List.flatMap_singleton]
    exact List.take_of_length_le all
  | cut before _ _ _ ih =>
    rw [List.flatMap_cons, ih, Range.slice_append_drop (Nat.le_of_lt before)]

variable {α β : Type} [Scalar α] {p : Probe β} {c : Color}

/-- Every child of a row stands in one line, in order. -/
theorem slices_ranges (children : List (Box α)) (breaks : List Nat) (width : α) :
    (ranges children breaks width).flatMap (·.slice children) = children :=
  (consecutive_ranges children breaks width).flatMap_slice rfl

theorem gather_dropWhile_isLeading {boxes : List (Box α)}
    (blind : ∀ b ∈ boxes, IsFlat b → b.gather p c = []) :
    (boxes.dropWhile isLeading).flatMap (Box.gather p c) = boxes.flatMap (Box.gather p c) := by
  obtain ⟨lead, whole, flat, -⟩ := trimmed_dropWhile boxes
  have lost : lead.flatMap (Box.gather p c) = [] := by
    refine List.flatMap_eq_nil_iff.mpr fun b hb => blind b ?_ (flat b hb)
    rw [whole]
    exact List.mem_append_left _ hb
  calc (boxes.dropWhile isLeading).flatMap (Box.gather p c)
      = (lead ++ boxes.dropWhile isLeading).flatMap (Box.gather p c) := by
        rw [List.flatMap_append, lost, List.nil_append]
    _ = boxes.flatMap (Box.gather p c) := by rw [← whole]

theorem gather_rows {children : List (Box α)}
    (blind : ∀ b ∈ children, IsFlat b → b.gather p c = []) (ranges : List Range) :
    (rows children ranges).flatMap (Box.gather p c) =
      (ranges.flatMap (·.slice children)).flatMap (Box.gather p c) := by
  have line (r : Range) : ((r.slice children).dropWhile isLeading).flatMap (Box.gather p c) =
      (r.slice children).flatMap (Box.gather p c) :=
    gather_dropWhile_isLeading fun b hb => blind b (Range.mem_of_mem_slice hb)
  cases ranges with
  | nil => rfl
  | cons first rest =>
    simp only [rows, List.flatMap_cons, Box.gather_hbox, List.flatMap_map, List.flatMap_append, line,
      List.flatMap_assoc]

theorem gather_withGaps (gap : α) (rows : List (Box α)) :
    (withGaps gap rows).flatMap (Box.gather p c) = rows.flatMap (Box.gather p c) := by
  induction rows with
  | nil => rfl
  | cons row rest ih =>
    cases rest with
    | nil => rfl
    | cons next rest =>
      simp only [withGaps, List.intersperse_cons_cons, List.flatMap_cons, Box.gather_space,
        List.nil_append] at ih ⊢
      rw [ih]

end Lines

namespace Box

variable {α β : Type} [Scalar α] {p : Probe β}

/-- Breaking a box into lines keeps what a probe reads off it that sees nothing in flat space. -/
theorem gather_split {b : Box α}
    (blind : ∀ child ∈ b.children, Lines.IsFlat child → ∀ c, child.gather p c = [])
    (width interline : α) (c : Color) : (b.split width interline).gather p c = b.gather p c := by
  cases b with
  | horizontal o children breaks =>
    by_cases wide : width < o.width ∧ breaks ≠ []
    · have lines : (Lines.rows children (Lines.ranges children breaks width)).flatMap
          (gather p (o.foreground.getD c)) = children.flatMap (gather p (o.foreground.getD c)) := by
        have blind : ∀ child ∈ children, Lines.IsFlat child → ∀ c, child.gather p c = [] := blind
        rw [Lines.gather_rows fun child hchild flat => blind child hchild flat _,
          Lines.slices_ranges]
      rw [split_of_wide wide, gather_eq, gather_eq p c (horizontal o children breaks)]
      show p.see c ⟨none, o.foreground, o.background⟩ ++
          (Lines.withGaps interline _).flatMap (gather p (o.foreground.getD c)) = _
      rw [Lines.gather_withGaps, lines]
      rfl
    · rw [split, lines?, if_neg wide]
  | _ => rfl

/-- The ways to place a box: broken into lines, and in a wider row. -/
inductive Placement (α : Type) where
  | split (width interline : α)
  | aligned (width : α) (align : Alignment)

/-- The box placed. -/
def place (b : Box α) : Placement α → Box α
  | .split width interline => b.split width interline
  | .aligned width align => b.aligned width align

/-- Placing a box keeps its characters. -/
theorem gather_places (sees : p.SeesChars) (steps : List (Placement α)) (b : Box α) (c : Color) :
    (steps.foldl place b).gather p c = b.gather p c := by
  induction steps generalizing b with
  | nil => rfl
  | cons step rest ih =>
    rw [List.foldl_cons, ih]
    cases step with
    | split width interline =>
      refine gather_split ?_ width interline c
      rintro child - ⟨o, rfl, -⟩ c
      rw [gather_eq, sees c _ rfl]
      rfl
    | aligned width align => exact gather_aligned p c b width align

/-- Placing a box gives it no color. -/
theorem IsColorless.places (steps : List (Placement α)) {b : Box α} (plain : b.IsColorless) :
    (steps.foldl place b).IsColorless := by
  induction steps generalizing b with
  | nil => exact plain
  | cons step rest ih =>
    refine ih fun c => ?_
    cases step with
    | split width interline =>
      refine (gather_split ?_ width interline c).trans (plain c)
      exact fun child inside _ => plain.of_mem_contents (mem_contents_of_mem_children inside)
    | aligned width align => exact (gather_aligned .hues c b width align).trans (plain c)

/-- Placing a box keeps its glyphs. -/
theorem glyphs_places (steps : List (Placement α)) (b : Box α) :
    (steps.foldl place b).glyphs = b.glyphs := by
  rw [glyphs_eq_gather .black, glyphs_eq_gather .black, gather_places Probe.seesChars_chars]

end Box

end FormulaInk
