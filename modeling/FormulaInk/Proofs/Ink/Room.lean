import Mathlib
import FormulaInk.Proofs.Atom.Nodes
import FormulaInk.Proofs.Ink.Layout
import FormulaInk.Proofs.Ink.Metrics
import FormulaInk.Proofs.Ink.Wrapped

/-! Layout makes room for what it places. If no space in a tree takes up less than nothing, then the
box of the tree keeps what it draws, and so do the lines that it may be broken into. -/

namespace FormulaInk

variable {α : Type} [Turns α] [Field α] [LinearOrder α]

/-- A setting whose units have a positive size. -/
structure Setting.Proper (s : Setting α) : Prop where
  size : 0 < s.font.size
  density : 0 < s.pixelsPerPoint

/-- The node is no space that takes up less than nothing. -/
def Atom.TakesRoom : Atom α → Prop
  | space kind => 0 ≤ (kind.mu : α)
  | strut width height depth => ∀ s : Setting α, s.Proper →
    0 ≤ s.length width ∧ 0 ≤ s.length height + s.length depth
  | _ => True

namespace Box

/-- A stackable box that keeps what it draws also when it is broken into lines. -/
structure Settled (b : Box α) : Prop extends Stackable b where
  lines : ∀ width, b.lines? width ≠ none → ∀ c ∈ b.children, c.Snug

theorem Stackable.settled {b : Box α} (h : b.Stackable) (whole : ∀ width, b.lines? width = none) :
    b.Settled :=
  ⟨h, fun width broken => absurd (whole width) broken⟩

theorem Stackable.settled_hbox {children : List (Box α)} (h : (Box.hbox children).Stackable) :
    (Box.hbox children).Settled := by
  apply h.settled
  intro width
  simp [lines?, Box.hbox, row]

/-- A box of a kind that is never broken, without shift. -/
theorem Snug.settled {b : Box α} (h : b.Snug) (shift : b.shift = Scalar.whole 0)
    (whole : ∀ width, b.lines? width = none) : b.Settled :=
  Stackable.settled ⟨h, (shift.trans Scalar.whole_zero).ge⟩ whole

omit [Turns α] [Field α] [LinearOrder α] in
theorem width_withShift (b : Box α) (shift : α) : (b.withShift shift).width = b.width := by
  rw [width, withShift, outline_withOutline]
  rfl

variable [IsStrictOrderedRing α]

theorem Settled.scale {base : Box α} (h : base.Snug) (x y : α) : (base.scale x y).Settled := by
  apply (h.scale x y).settled
  · rw [Box.scale]
    split <;> rfl
  · intro width
    rw [Box.scale]
    split <;> rfl

theorem Settled.colored {b : Box α} (h : b.Settled) (foreground background : Option Color) :
    (b.colored foreground background).Settled := by
  refine ⟨⟨h.snug.colored foreground background, ?_⟩, ?_⟩
  · cases b <;> exact h.shift
  · cases b <;> exact h.lines

end Box

/-! ### Rows -/

/-- The box of the cell keeps what it draws, also when it is grown. -/
def Cell.Snug : Cell α → Prop
  | .breakMark => True
  | .neutral box => box.Snug
  | .solid _ _ grows box => box.Snug ∧ (grows → ∀ height depth, (Row.grow height depth box).Snug)

namespace Row

variable [IsStrictOrderedRing α]

/-- What stands in a row keeps what it draws, also when it is grown. -/
def AllSnug (children : List (Bool × Box α)) : Prop :=
  ∀ c ∈ children, c.2.Snug ∧ (c.1 → ∀ height depth, (grow height depth c.2).Snug)

theorem allSnug_glue (style : Style) {mu : α} (wide : 0 ≤ mu) (previous : Option AtomClass)
    (left : AtomClass) : AllSnug (children (glue style mu previous left)) := by
  intro c mem
  cases previous with
  | none => cases mem
  | some previous =>
    rw [glue] at mem
    split at mem
    · next positive =>
      obtain rfl := List.mem_singleton.mp mem
      rw [Scalar.whole_zero] at positive
      exact ⟨.kern (mul_nonneg positive.le wide), by simp⟩
    · cases mem

theorem allSnug_pieces (style : Style) {mu : α} (wide : 0 ≤ mu) (previous : Option AtomClass)
    {cells : List (Cell α)} (each : ∀ cell ∈ cells, cell.Snug) :
    AllSnug (children (pieces style mu previous cells)) := by
  induction cells generalizing previous with
  | nil => exact List.forall_mem_nil _
  | cons cell rest ih =>
    obtain ⟨first, later⟩ := List.forall_mem_cons.mp each
    cases cell with
    | breakMark => exact ih previous later
    | neutral box =>
      exact List.forall_mem_cons.mpr ⟨⟨first, by simp⟩, ih previous later⟩
    | solid left right grows box =>
      rw [pieces, children_append]
      intro c mem
      rcases List.mem_append.mp mem with before | here
      · exact allSnug_glue style wide previous _ c before
      · rcases List.mem_cons.mp here with rfl | after
        · exact first
        · exact ih _ later c after

omit [IsStrictOrderedRing α] in
theorem snug_of_mem_stretch {children : List (Bool × Box α)} (all : AllSnug children) :
    ∀ b ∈ stretch children, b.Snug := by
  intro b mem
  unfold stretch at mem
  dsimp only at mem
  split at mem
  · obtain ⟨⟨grows, box⟩, inside, rfl⟩ := List.mem_map.mp mem
    obtain ⟨plain, grown⟩ := all _ inside
    dsimp only
    split
    · next tall => exact grown tall _ _
    · exact plain
  · obtain ⟨c, inside, rfl⟩ := List.mem_map.mp mem
    exact (all c inside).1

theorem settled_ofCells (style : Style) {mu : α} (wide : 0 ≤ mu) {cells : List (Cell α)}
    (each : ∀ cell ∈ cells, cell.Snug) : (ofCells style mu cells).Settled := by
  have all := snug_of_mem_stretch (allSnug_pieces style wide none each)
  exact ⟨⟨.row all _, Scalar.whole_zero.ge⟩, fun _ _ => all⟩

end Row

/-! ### Fractions, scripts and radicals -/

namespace Layout

variable [IsStrictOrderedRing α] (s : Setting α)

theorem settled_glyph (ch : Char) : (glyph s ch).Settled :=
  (snug_glyph s ch).settled rfl fun _ => rfl

theorem settled_bigOperator {b : Box α} (h : b.Snug) : (bigOperator s b).Settled := by
  apply Box.Stackable.settled_hbox
  apply Box.Stackable.hbox_single
  apply Box.Snug.withShift
  split
  · exact h.scale _ _
  · exact h

theorem settled_centered {b : Box α} (h : b.Snug) : (centered s b).Settled :=
  (Box.Stackable.hbox_single (h.withShift _)).settled_hbox

/-- A shift that is enlarged to the clearance keeps it. -/
theorem le_gap_enlarged (gap : α → α) (rises : ∀ a t, gap (a + t) = gap a + t) (least shift : α) :
    least ≤ gap (enlarged least (gap shift) shift) := by
  rw [enlarged]
  split
  · rw [rises]
    linarith
  · next wide => exact not_lt.mp wide

theorem clearance_nonneg : 0 ≤ clearance s := by
  have rule := Font.ruleThickness_pos (α := α) s.style
  rw [clearance]
  split
  · exact mul_nonneg (Nat.cast_nonneg 3) rule.le
  · exact rule.le

theorem clearance_le_gapAbove (num : Box α) : clearance s ≤ gapAbove s num (numRaise s num) := by
  apply le_gap_enlarged (gapAbove s num)
  intro a t
  rw [gapAbove, gapAbove]
  ring

theorem clearance_le_gapBelow (den : Box α) : clearance s ≤ gapBelow s den (denDrop s den) := by
  apply le_gap_enlarged (gapBelow s den)
  intro a t
  rw [gapBelow, gapBelow]
  ring

theorem gapAbove_nonneg (num : Box α) : 0 ≤ gapAbove s num (numRaise s num) :=
  (clearance_nonneg s).trans (clearance_le_gapAbove s num)

theorem gapBelow_nonneg (den : Box α) : 0 ≤ gapBelow s den (denDrop s den) :=
  (clearance_nonneg s).trans (clearance_le_gapBelow s den)

theorem stackable_rule {width : α} (wide : 0 ≤ width) :
    (Box.bar width (Font.ruleThickness s.style) (Scalar.whole 0)).Stackable := by
  refine ⟨.bar wide ?_, Scalar.whole_zero.ge⟩
  rw [Scalar.whole_zero, add_zero]
  exact (Font.ruleThickness_pos s.style).le

theorem stackable_fractionStack {num den : Box α} (above : num.Snug) (below : den.Snug) :
    (fractionStack s num den).Stackable := by
  have wide : 0 ≤ Scalar.max num.width den.width := by
    rw [Scalar.max_eq]
    exact le_sup_of_le_left above.width
  apply Box.Stackable.stack
  simp only [List.forall_mem_cons, List.not_mem_nil, IsEmpty.forall_iff, implies_true, and_true]
  exact ⟨.aligned above _ _, .gap (gapAbove_nonneg s num), stackable_rule s wide,
    .gap (gapBelow_nonneg s den), .aligned below _ _⟩

theorem settled_fraction {num den : Box α} (above : num.Snug) (below : den.Snug) :
    (fraction s num den).Settled := by
  have side : (Box.kern (delimiterSpace * s.style.factor : α)).Snug :=
    .kern (Style.portion_nonneg 12 100 s.style)
  have middle := (stackable_fractionStack s above below).snug
  exact (Box.Stackable.hbox_triple side middle side).settled_hbox

theorem stackable_scriptStack (base : Box α) {sup sub : Box α} (above : sup.Stackable)
    (below : sub.Stackable) : (scriptStack s base sup sub).Stackable := by
  have rule := Font.ruleThickness_pos (α := α) s.style
  have least : 0 ≤ Scalar.whole 4 * Font.ruleThickness (α := α) s.style :=
    mul_nonneg (Nat.cast_nonneg 4) rule.le
  apply Box.Stackable.stack
  simp only [List.forall_mem_cons, List.not_mem_nil, IsEmpty.forall_iff, implies_true, and_true]
  refine ⟨above, .gap (least.trans ?_), below⟩
  apply le_gap_enlarged fun drop => supRaise s base - sup.depth - (sub.height - drop)
  intro a t
  ring

theorem settled_scripts {base : Box α} {sup sub : Option (Box α)} (h : base.Settled)
    (above : ∀ b ∈ sup, b.Settled) (below : ∀ b ∈ sub, b.Settled) :
    (scripts s base sup sub).Settled := by
  have after : (Box.kern (scriptSpace * s.style.factor : α)).Snug :=
    .kern (Style.portion_nonneg 5 100 s.style)
  have attach {b : Box α} (attached : b.Snug) :
      (Box.hbox [base, b, .kern (scriptSpace * s.style.factor)]).Settled :=
    (Box.Stackable.hbox_triple h.snug attached after).settled_hbox
  cases sup with
  | none =>
    cases sub with
    | none => exact h
    | some sub => exact attach ((below sub rfl).snug.withShift _)
  | some sup =>
    cases sub with
    | none => exact attach ((above sup rfl).snug.withShift _)
    | some sub =>
      have both := stackable_scriptStack s base (above sup rfl).toStackable
        (below sub rfl).toStackable
      exact attach both.snug

/-- The index of a radical hangs over the sign: what is drawn back after it is no wider than either
of the two, so there is room on both sides of every part. -/
theorem stackable_indexed {index sign body : Box α} {back : α} (first : index.Snug) (second : sign.Snug)
    (third : body.Snug) (positive : 0 ≤ back) (within : back ≤ index.width)
    (short : back ≤ sign.width) : (Box.hbox [index, .kern (-back), sign, body]).Stackable := by
  have w₁ := first.width
  have w₂ := second.width
  have w₃ := third.width
  have kern : (Box.kern (-back)).width = -back := rfl
  have flat : 0 ≤ (Box.kern (-back)).totalHeight := by
    show (0 : α) ≤ Scalar.whole 0 + Scalar.whole 0
    simp
  refine ⟨⟨?_, ?_, ?_⟩, Scalar.whole_zero.ge⟩
  · show 0 ≤ Scalar.sum _
    rw [Scalar.sum_eq_sum]
    simp only [List.map_cons, List.map_nil, List.sum_cons, List.sum_nil, kern]
    linarith
  · apply Box.totalHeight_row
    simp only [List.forall_mem_cons, List.not_mem_nil, IsEmpty.forall_iff, implies_true, and_true]
    exact ⟨first.total, flat, second.total, third.total⟩
  · apply Box.tidy_row
    · apply Box.keepsParts_row
      intro before c after split
      rcases before with _ | ⟨a, _ | ⟨b, _ | ⟨d, _ | ⟨e, rest⟩⟩⟩⟩
      case cons.cons.cons.cons => simp at split
      all_goals
        cases split
        simp only [List.map_cons, List.map_nil, List.sum_cons, List.sum_nil, kern]
        constructor <;> linarith
    · simp only [List.forall_mem_cons, List.not_mem_nil, IsEmpty.forall_iff, implies_true, and_true]
      exact ⟨first.tidy, Box.tidy_space _ _ _, second.tidy, third.tidy⟩

/-- The sign of a radical is as high as what stands under it, which is no less than its rule. -/
theorem snug_sign {width : α} (height depth : α) (wide : 0 ≤ width)
    (high : Font.ruleThickness s.style ≤ height + depth) :
    (Box.radical width height depth (Font.ruleThickness s.style * s.font.weight)).Snug := by
  have rule := Font.ruleThickness_pos (α := α) s.style
  have heavy := mul_le_mul_of_nonneg_left s.font.weight_le rule.le
  apply Box.Snug.radical wide
  · exact mul_nonneg rule.le s.font.weight_pos.le
  · linarith

theorem settled_root {index : Option (Box α)} {base : Box α} (h : base.Settled)
    (front : ∀ b ∈ index, b.Settled) : (root s index base).Settled := by
  have rule := Font.ruleThickness_pos (α := α) s.style
  have total := h.snug.total
  rw [Box.totalHeight] at total
  have wide : (0 : α) ≤ Scalar.ratio 833 1000 * s.style.factor := s.style.portion_nonneg 833 1000
  obtain ⟨clearance, clear, apart⟩ : ∃ clearance : α, Font.ruleThickness s.style +
      (if s.style.isDisplay then Font.xHeight s.style else Font.ruleThickness s.style) /
        Scalar.whole 4 = clearance ∧ 0 ≤ clearance := by
    refine ⟨_, rfl, add_nonneg rule.le (div_nonneg ?_ (Nat.cast_nonneg 4))⟩
    split
    · exact (Font.xHeight_pos s.style).le
    · exact rule.le
  have sign := snug_sign s (base.height + clearance + Font.ruleThickness s.style) base.depth wide
    (by linarith)
  have body : (Box.stack [.bar base.width (Font.ruleThickness s.style) (Scalar.whole 0),
      .space (Scalar.whole 0) clearance (Scalar.whole 0), base]
      (base.height + clearance + Font.ruleThickness s.style)).Stackable := by
    apply Box.Stackable.stack
    simp only [List.forall_mem_cons, List.not_mem_nil, IsEmpty.forall_iff, implies_true, and_true]
    exact ⟨stackable_rule s h.snug.width, .gap apart, h.toStackable⟩
  apply Box.Stackable.settled_hbox
  dsimp only
  rw [clear]
  cases index with
  | none => exact .hbox_pair sign body.snug
  | some index =>
    have above := (front index rfl).snug
    have half : Scalar.ratio 5 10 * (Scalar.ratio 833 1000 * s.style.factor) ≤
        (Scalar.ratio 833 1000 * s.style.factor : α) :=
      mul_le_of_le_one_left wide (by norm_num [Scalar.ratio_eq])
    have positive : 0 ≤ Scalar.ratio 5 10 * (Scalar.ratio 833 1000 * s.style.factor : α) :=
      mul_nonneg (by norm_num [Scalar.ratio_eq]) wide
    apply stackable_indexed (above.withShift _) sign body.snug
    · rw [Scalar.min_eq]
      exact le_inf above.width positive
    · rw [Scalar.min_eq]
      exact inf_le_left.trans_eq (Box.width_withShift index _).symm
    · rw [Scalar.min_eq]
      exact inf_le_right.trans half

theorem stackable_of_mem_lineParts {gap width : α} (apart : 0 ≤ gap) {align : Alignment}
    {boxes : List (Box α)} (all : ∀ b ∈ boxes, b.Snug) :
    ∀ b ∈ lineParts gap width align boxes, b.Stackable := by
  induction boxes with
  | nil => exact List.forall_mem_nil _
  | cons line rest ih =>
    obtain ⟨first, later⟩ := List.forall_mem_cons.mp all
    have here := Box.Stackable.aligned first width align
    cases rest with
    | nil => exact List.forall_mem_singleton.mpr here
    | cons next rest =>
      rw [lineParts]
      · exact List.forall_mem_cons.mpr ⟨here, List.forall_mem_cons.mpr ⟨.gap apart, ih later⟩⟩
      · simp

theorem settled_lines (align : Alignment) {boxes : List (Box α)} (all : ∀ b ∈ boxes, b.Snug) :
    (lines s align boxes).Settled := by
  apply Box.Stackable.settled _ fun _ => rfl
  apply Box.Stackable.stack
  exact stackable_of_mem_lineParts (Style.portion_nonneg 2 10 s.style) all

end Layout

/-! ### Trees -/

namespace Setting.Proper

variable {s : Setting α}

theorem withStyle (h : s.Proper) (style : Style) : (s.withStyle style).Proper := ⟨h.size, h.density⟩

theorem withFontType (h : s.Proper) (type : FontType) : (s.withFontType type).Proper :=
  ⟨h.size, h.density⟩

end Setting.Proper

namespace Atom

variable [IsStrictOrderedRing α]

theorem snug_cell {a : Atom α} {s : Setting α} (h : (a.layout s).box.Snug) :
    (cell a (a.layout s).box).Snug := by
  cases a with
  | breakMark => trivial
  | middle ch => exact ⟨h, fun _ => snug_grow_glyph s ch⟩
  | _ =>
    unfold cell
    dsimp only
    split
    · exact h
    · exact ⟨h, fun grows => absurd grows (by simp [Atom.grows])⟩

/-- If no space in a tree takes up less than nothing, its box keeps what it draws in every setting. -/
theorem settled_layout (a : Atom α) (room : ∀ n ∈ a.nodes, n.TakesRoom) {s : Setting α}
    (proper : s.Proper) : (a.layout s).box.Settled := by
  induction a using Atom.induction generalizing s with
  | step a ih =>
    rw [nodes_eq, List.forall_mem_cons] at room
    -- the induction is for all settings, as a part may stand in another one than the whole
    have part : ∀ b ∈ a.parts, ∀ {s : Setting α}, s.Proper → (b.layout s).box.Settled := by
      intro b hb s proper
      exact ih b hb (fun n hn => room.2 n (List.mem_flatMap.mpr ⟨b, hb, hn⟩)) proper
    have optional {s : Setting α} (proper : s.Proper) {o : Option (Atom α)}
        (within : ∀ b ∈ o, b ∈ a.parts) : ∀ b ∈ (layoutSome s o).1, b.Settled := by
      cases o with
      | none => simp [layoutSome]
      | some b =>
        intro c found
        obtain rfl := Option.some.inj found
        exact part b (within b rfl) proper
    have rule := (Font.ruleThickness_pos (α := α) s.style).le
    cases a with
    | empty | breakMark => exact Box.Snug.nothing.settled rfl fun _ => rfl
    | char ch | middle ch => exact Layout.settled_glyph s ch
    | symbol name ch kind =>
      rw [layout]
      dsimp only [Laid.plain]
      split
      · exact Layout.settled_bigOperator s (snug_glyph s ch)
      · exact Layout.settled_glyph s ch
    | row items =>
      rw [layout]
      apply Row.settled_ofCells _ (Font.mu_pos s.style).le
      rw [layoutCells_eq_map, List.forall_mem_map]
      intro b hb
      exact snug_cell (part b hb proper).snug
    | typed left right base => exact part base (List.mem_singleton_self _) proper
    | styled type base => exact part base (List.mem_singleton_self _) (proper.withFontType type)
    | color background foreground base =>
      exact (part base (List.mem_singleton_self _) proper).colored foreground background
    | fraction num den =>
      have above := part num (by simp [parts]) (proper.withStyle s.style.num)
      have below := part den (by simp [parts]) (proper.withStyle s.style.denom)
      exact Layout.settled_fraction s above.snug below.snug
    | scripts base sup sub =>
      rw [layout]
      apply Layout.settled_scripts s (part base (by simp [parts]) proper)
      · exact optional (proper.withStyle s.style.sup) fun b hb => by simp_all [parts]
      · exact optional (proper.withStyle s.style.sub) fun b hb => by simp_all [parts]
    | sqrt index base =>
      rw [layout]
      apply Layout.settled_root s
      · exact part base (by simp [parts]) (proper.withStyle s.style.cramp)
      · exact optional (proper.withStyle s.style.root) fun b hb => by simp_all [parts]
    | space kind =>
      have wide : (0 : α) ≤ kind.mu * Font.mu s.style := mul_nonneg room.1 (Font.mu_pos s.style).le
      exact (Box.Snug.kern wide).settled rfl fun _ => rfl
    | strut width height depth =>
      obtain ⟨wide, high⟩ := room.1 s proper
      exact (Box.Snug.space wide high).settled rfl fun _ => rfl
    | text run font =>
      apply Box.Stackable.settled_hbox
      apply Box.Stackable.hbox
      rw [List.forall_mem_map]
      intro ch _
      exact snug_glyph (s.withFontType .roman) ch
    | vCentered base =>
      exact Layout.settled_centered s (part base (List.mem_singleton_self _) proper).snug
    | framed base =>
      have inner := (part base (List.mem_singleton_self _) proper).snug
      exact (inner.frame rule (Style.portion_nonneg 15 100 s.style)).settled rfl fun _ => rfl
    | oval base =>
      have inner := (part base (List.mem_singleton_self _) proper).snug
      exact (inner.ovalFrame rule (Style.portion_nonneg 15 100 s.style)).settled rfl fun _ => rfl
    | circled base =>
      have inner := (part base (List.mem_singleton_self _) proper).snug
      exact (inner.circle rule (Style.portion_nonneg 5 100 s.style)).settled rfl fun _ => rfl
    | rotated degrees base =>
      have inner := (part base (List.mem_singleton_self _) proper).snug
      exact (inner.rotate degrees).settled rfl fun _ => rfl
    | scaled x y base =>
      have inner := (part base (List.mem_singleton_self _) proper).snug
      exact .scale inner x y
    | lines rows align =>
      rw [layout]
      apply Layout.settled_lines
      rw [layoutAll_eq_map, List.forall_mem_map]
      intro b hb
      exact (part b hb proper).snug

end Atom

end FormulaInk
