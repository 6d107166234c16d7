import Mathlib.Algebra.Order.BigOperators.Group.List
import Mathlib.Algebra.Field.Rat
import Mathlib.Algebra.Order.Ring.Rat
import FormulaInk.Proofs.Lines.Partition
import FormulaInk.Proofs.Scalar.Exact

/-! Breaking a row into lines is greedy on the pieces as they are measured, which is with the flat
space at their start. A line is drawn without it, so as drawn it may be too wide by what is negative
in that space, and may have room for the next segment in what is positive. -/

namespace FormulaInk

namespace Range

variable {β γ : Type}

theorem slice_concat {xs rest : List β} {x : β} {first index : Nat} (h : first ≤ index)
    (here : xs.drop index = x :: rest) :
    slice ⟨first, index + 1⟩ xs = slice ⟨first, index⟩ xs ++ [x] := by
  have found : (xs.drop first)[index - first]? = some x := by
    rw [List.getElem?_drop, Nat.add_sub_cancel' h, ← List.head?_drop, here, List.head?_cons]
  have count : index + 1 - first = index - first + 1 := by omega
  rw [slice, slice, count, List.take_add_one, found, Option.toList_some]

theorem slice_map (r : Range) (f : β → γ) (xs : List β) :
    r.slice (xs.map f) = (r.slice xs).map f := by
  rw [slice, slice, List.map_take, List.map_drop]

theorem slice_sublist {past next : Nat} (h : past ≤ next) (first : Nat) (xs : List β) :
    (slice ⟨first, past⟩ xs).Sublist (slice ⟨first, next⟩ xs) :=
  List.take_sublist_take_left (Nat.sub_le_sub_right h first)

end Range

namespace Lines

section Scan

variable {α : Type} [Scalar α] (widths : List α) (breaks : List Nat) (width : α)

/-- How wide a piece is together, added up from left to right. -/
def measure (r : Range) : α := Scalar.sum (r.slice widths)

/-- A piece with a break position strictly inside is measured as no wider than the width. -/
def Fits (r : Range) : Prop :=
  (∃ b ∈ breaks, r.first < b ∧ b < r.past) → ¬width < measure widths r

/-- A piece is measured as too wide when it goes on to some child that stands before the next break
position after its end. -/
def Full (r : Range) : Prop :=
  ∃ index < widths.length, r.past ≤ index ∧ (∀ b ∈ breaks, r.past < b → index < b) ∧
    width < measure widths ⟨r.first, index + 1⟩

/-- Every piece fits, and every piece but the last is full. -/
inductive Greedy : List Range → Prop
  | last {r : Range} : Fits widths breaks width r → Greedy [r]
  | cut {r : Range} {rest : List Range} : Fits widths breaks width r → Full widths breaks width r →
      Greedy rest → Greedy (r :: rest)

/-- What the scan knows of its candidate for the next cut, where the line that is being filled
starts at `start` and the children before `past` are met. -/
inductive Pending (start past : Nat) : Option Nat → Prop
  | none : (∀ b ∈ breaks, start < b → past ≤ b) → Pending start past none
  | some {cut : Nat} : start < cut → cut < past → (∀ b ∈ breaks, cut < b → past ≤ b) →
      Fits widths breaks width ⟨start, cut⟩ → Pending start past (some cut)

variable {widths breaks width} {start index : Nat} {candidate : Option Nat}

theorem Pending.next (pending : Pending widths breaks width start index candidate)
    (room : ∀ cut ∈ candidate, ¬width < measure widths ⟨start, index⟩) :
    Pending widths breaks width start (index + 1)
      (if start < index ∧ index ∈ breaks then Option.some index else candidate) := by
  split
  · rename_i here
    refine .some here.1 (Nat.lt_succ_self index) (fun b _ after => after) ?_
    rintro ⟨b, found, before, after⟩
    cases pending with
    | none free => exact absurd after (Nat.not_lt.mpr (free b found before))
    | some => exact room _ rfl
  · rename_i away
    have skip {first : Nat} (behind : start ≤ first)
        (free : ∀ b ∈ breaks, first < b → index ≤ b) :
        ∀ b ∈ breaks, first < b → index + 1 ≤ b := by
      intro b found after
      have reached := free b found after
      have other : b ≠ index := by
        rintro rfl
        exact away ⟨by omega, found⟩
      omega
    cases pending with
    | none free => exact .none (skip (Nat.le_refl start) free)
    | some before met free fits =>
      exact .some before (by omega) (skip (Nat.le_of_lt before) free) fits

theorem greedy_rangesFrom (rest : List α) (index start : Nat) (sum : α) (candidate : Option Nat)
    (here : widths.drop index = rest) (within : index ≤ widths.length) (started : start ≤ index)
    (added : sum = measure widths ⟨start, index⟩)
    (pending : Pending widths breaks width start index candidate)
    (room : ∀ cut ∈ candidate, ¬width < sum) :
    Greedy widths breaks width (rangesFrom widths breaks width rest index start sum candidate) := by
  subst added
  induction rest generalizing index start candidate with
  | nil =>
    obtain rfl : index = widths.length :=
      Nat.le_antisymm within (List.drop_eq_nil_iff.mp here)
    refine .last ?_
    rintro ⟨b, found, before, after⟩
    cases pending with
    | none free => exact absurd after (Nat.not_lt.mpr (free b found before))
    | some => exact room _ rfl
  | cons w rest ih =>
    have after : widths.drop (index + 1) = rest := by
      rw [← List.tail_drop, here, List.tail_cons]
    have inside : index < widths.length := by
      have := congrArg List.length here
      simp at this
      omega
    have more : measure widths ⟨start, index⟩ + w = measure widths ⟨start, index + 1⟩ := by
      rw [measure, measure, Range.slice_concat started here, Scalar.sum, Scalar.sum,
        List.foldl_append, List.foldl_cons, List.foldl_nil]
    have next := pending.next room
    unfold rangesFrom
    dsimp only
    generalize (if start < index ∧ index ∈ breaks then some index else candidate) = candidate
      at next ⊢
    rw [more]
    split
    · rename_i excess
      cases next with
      | none free =>
        exact ih (index + 1) start none after inside (by omega) (.none free) (by simp)
      | @some cut before met free fits =>
        refine .cut fits ⟨index, inside, Nat.le_of_lt_succ met, free, excess⟩ ?_
        -- No break position is left between the cut and the child that is met, so the next line
        -- starts without a candidate.
        exact ih (index + 1) cut none after inside (by omega) (.none free) (by simp)
    · rename_i held
      exact ih (index + 1) start candidate after inside (by omega) next fun _ _ => held

theorem greedy_ranges (children : List (Box α)) (breaks : List Nat) (width : α) :
    Greedy (children.map Box.width) breaks width (ranges children breaks width) := by
  have nothing : Scalar.whole 0 = measure (children.map Box.width) ⟨0, 0⟩ := rfl
  exact greedy_rangesFrom _ 0 0 _ none rfl (Nat.zero_le _) (Nat.le_refl 0) nothing
    (.none fun b _ after => Nat.zero_le b) (by simp)

namespace Greedy

variable {ranges : List Range}

theorem fits (h : Greedy widths breaks width ranges) :
    ∀ r ∈ ranges, Fits widths breaks width r := by
  induction h with
  | last fits => simpa using fits
  | cut fits _ _ ih => exact List.forall_mem_cons.mpr ⟨fits, ih⟩

theorem full (h : Greedy widths breaks width ranges) :
    ∀ r ∈ ranges.dropLast, Full widths breaks width r := by
  induction h with
  | last => simp
  | @cut r rest _ full behind ih =>
    obtain ⟨next, more, rfl⟩ : ∃ next more, rest = next :: more := by
      cases behind <;> exact ⟨_, _, rfl⟩
    rw [List.dropLast_cons_cons]
    exact List.forall_mem_cons.mpr ⟨full, ih⟩

end Greedy

/-- In any arithmetic the pieces cover the row, and each of them is measured as no wider than the
width or has no break position strictly inside. -/
theorem fits_or_unbreakable (children : List (Box α)) (breaks : List Nat) (width : α) :
    Consecutive breaks children.length 0 (ranges children breaks width) ∧
      ∀ r ∈ ranges children breaks width,
        ¬width < measure (children.map Box.width) r ∨
          ∀ b ∈ breaks, ¬(r.first < b ∧ b < r.past) := by
  refine ⟨consecutive_ranges children breaks width, fun r here => ?_⟩
  by_cases breakable : ∃ b ∈ breaks, r.first < b ∧ b < r.past
  · exact .inl ((greedy_ranges children breaks width).fits r here breakable)
  · exact .inr fun b found inside => breakable ⟨b, found, inside⟩

end Scan

/-- The first letter alone is too wide. The negative kern behind it makes room again, and so the
line goes on past a break position. -/
theorem fits_or_unbreakable_kern :
    let letter (width : Float32) : Box Float32 :=
      .ofChar 'x' width (Scalar.whole 1) (Scalar.whole 0) (Scalar.ratio 4 100)
    let children := [letter (Scalar.whole 2), .kern (-Scalar.whole 1), letter (Scalar.ratio 1 2),
      letter (Scalar.whole 1)]
    let width : Float32 := Scalar.ratio 3 2
    ⟨0, 3⟩ ∈ ranges children [1, 3] width ∧
      (¬width < measure (children.map Box.width) ⟨0, 3⟩ ∨
        ∀ b ∈ [1, 3], ¬(0 < b ∧ b < 3)) := by
  intro letter children width
  have here : ⟨0, 3⟩ ∈ ranges children [1, 3] width := by decide +kernel
  exact ⟨here, (fits_or_unbreakable children [1, 3] width).2 _ here⟩

section Drawing

variable {α : Type} [Scalar α]

/-- What is drawn of the piece of line `i`. -/
def drawn (i : Nat) (piece : List (Box α)) : List (Box α) :=
  if i = 0 then piece else piece.dropWhile isLeading

/-- The flat space at the start of the piece of line `i` that is not drawn. -/
def lost (i : Nat) (piece : List (Box α)) : List (Box α) :=
  if i = 0 then [] else piece.takeWhile isLeading

theorem lost_append_drawn (i : Nat) (piece : List (Box α)) :
    lost i piece ++ drawn i piece = piece := by
  unfold lost drawn
  split
  · rfl
  · exact List.takeWhile_append_dropWhile

theorem mem_lost {i : Nat} {piece : List (Box α)} {b : Box α} (h : b ∈ lost i piece) :
    b ∈ piece ∧ IsFlat b := by
  unfold lost at h
  split at h
  · exact absurd h List.not_mem_nil
  · exact ⟨(List.takeWhile_sublist _).mem h, (isLeading_iff b).mp (List.mem_takeWhile_imp h)⟩

theorem rows_eq_mapIdx (children : List (Box α)) (ranges : List Range) :
    rows children ranges = ranges.mapIdx fun i r => .hbox (drawn i (r.slice children)) := by
  cases ranges with
  | nil => rfl
  | cons first rest =>
    rw [rows, List.mapIdx_cons]
    refine congrArg (List.cons _) (List.ext_getElem? fun i => ?_)
    simp [drawn]

end Drawing

section Exact

variable {α : Type} [Turns α] [Field α] [LinearOrder α]

/-- The widths of boxes together. -/
def total (boxes : List (Box α)) : α := (boxes.map Box.width).sum

theorem measure_eq_total (children : List (Box α)) (r : Range) :
    measure (children.map Box.width) r = total (r.slice children) := by
  rw [measure, Scalar.sum_eq_sum, Range.slice_map, total]

theorem width_hbox (boxes : List (Box α)) : (Box.hbox boxes).width = total boxes :=
  Scalar.sum_eq_sum _

theorem total_le_total {part whole : List (Box α)} [IsStrictOrderedRing α] (h : part.Sublist whole)
    (nonnegative : ∀ b ∈ whole, 0 ≤ b.width) : total part ≤ total whole :=
  (h.map Box.width).sum_le_sum (List.forall_mem_map.mpr nonnegative)

/-- How wide a piece is drawn as line `i`. -/
def drawnWidth (i : Nat) (piece : List (Box α)) : α := (Box.hbox (drawn i piece)).width

/-- How wide a piece counts as line `i`, with the space that is not drawn. -/
def countedWidth (i : Nat) (piece : List (Box α)) : α := drawnWidth i piece + total (lost i piece)

theorem countedWidth_eq_total (i : Nat) (piece : List (Box α)) :
    countedWidth i piece = total piece := by
  calc countedWidth i piece
      = total (lost i piece) + total (drawn i piece) := by
        rw [countedWidth, drawnWidth, width_hbox, add_comm]
    _ = total (lost i piece ++ drawn i piece) := by simp [total]
    _ = total piece := by rw [lost_append_drawn]

/-- Where the segment ends that starts at `past`: at the next break position, or at the end of the
row. -/
structure SegmentEnd (breaks : List Nat) (length past next : Nat) : Prop where
  after : past < next
  within : next ≤ length
  stop : next ∈ breaks ∨ next = length
  first : ∀ b ∈ breaks, past < b → next ≤ b

variable (lineWidth : Nat → List (Box α) → α) (children : List (Box α)) (breaks : List Nat)
  (width : α)

/-- Lines with a break position strictly inside their piece are no wider than the width. -/
def KeepsWithin : Prop :=
  ∀ (i : Nat) (r : Range), (ranges children breaks width)[i]? = some r →
    (∃ b ∈ breaks, r.first < b ∧ b < r.past) → lineWidth i (r.slice children) ≤ width

/-- Where no child has a negative width, no line but the last could also hold the next segment. -/
def HoldsMost : Prop :=
  (∀ c ∈ children, 0 ≤ c.width) →
    ∀ (i : Nat) (r : Range), (ranges children breaks width)[i]? = some r →
      i + 1 < (ranges children breaks width).length →
        ∀ next, SegmentEnd breaks children.length r.past next →
          width < lineWidth i (Range.slice ⟨r.first, next⟩ children)

theorem keepsWithin_countedWidth : KeepsWithin countedWidth children breaks width := by
  intro i r here inside
  have fits := (greedy_ranges children breaks width).fits r (List.mem_of_getElem? here) inside
  rw [measure_eq_total] at fits
  rw [countedWidth_eq_total]
  exact not_lt.mp fits

variable [IsStrictOrderedRing α]

theorem holdsMost_countedWidth : HoldsMost countedWidth children breaks width := by
  intro nonnegative i r here more next segment
  have before : r ∈ (ranges children breaks width).dropLast := by
    refine List.mem_of_getElem? (i := i) ?_
    rw [List.getElem?_dropLast, if_pos (by omega), here]
  obtain ⟨index, inside, reached, free, excess⟩ := (greedy_ranges children breaks width).full r before
  have far : index + 1 ≤ next := by
    rcases segment.stop with stop | rfl
    · exact free next stop segment.after
    · rwa [List.length_map] at inside
  rw [measure_eq_total] at excess
  rw [countedWidth_eq_total]
  calc width < total (Range.slice ⟨r.first, index + 1⟩ children) := excess
    _ ≤ total (Range.slice ⟨r.first, next⟩ children) :=
      total_le_total (Range.slice_sublist far r.first children) fun b hb =>
        nonnegative b (Range.mem_of_mem_slice hb)

variable {children}

theorem keepsWithin_drawnWidth (flat : ∀ c ∈ children, IsFlat c → 0 ≤ c.width) :
    KeepsWithin drawnWidth children breaks width := by
  intro i r here inside
  have widens : 0 ≤ total (lost i (r.slice children)) := by
    refine List.sum_nonneg (List.forall_mem_map.mpr fun c hc => ?_)
    obtain ⟨member, lead⟩ := mem_lost hc
    exact flat c (Range.mem_of_mem_slice member) lead
  calc drawnWidth i (r.slice children)
      ≤ countedWidth i (r.slice children) := le_add_of_nonneg_right widens
    _ ≤ width := keepsWithin_countedWidth children breaks width i r here inside

theorem holdsMost_drawnWidth (flat : ∀ c ∈ children, IsFlat c → c.width ≤ 0) :
    HoldsMost drawnWidth children breaks width := by
  intro nonnegative i r here more next segment
  have narrows : total (lost i (Range.slice ⟨r.first, next⟩ children)) ≤ 0 := by
    refine (List.sum_le_card_nsmul _ 0 (List.forall_mem_map.mpr fun c hc => ?_)).trans_eq
      (nsmul_zero _)
    obtain ⟨member, lead⟩ := mem_lost hc
    exact flat c (Range.mem_of_mem_slice member) lead
  calc width
      < countedWidth i (Range.slice ⟨r.first, next⟩ children) :=
        holdsMost_countedWidth children breaks width nonnegative i r here more next segment
    _ ≤ drawnWidth i (Range.slice ⟨r.first, next⟩ children) := add_le_of_nonpos_right narrows

end Exact

end Lines

namespace Box

open Lines

variable {α : Type} [Turns α] [Field α] [LinearOrder α] [IsStrictOrderedRing α] {o : Outline α}
  {children : List (Box α)} {breaks : List Nat} {width interline : α}

/-- Line breaking is greedy when a line counts with the flat space that it loses at its start: a
line that could be broken is no wider than the width, and where no child has a negative width no
line but the last could also hold the next segment. As drawn, the first holds where flat space is
not negative, and the second where it is not positive. -/
theorem split_greedy
    (broken : (horizontal o children breaks).split width interline ≠ horizontal o children breaks) :
    (horizontal o children breaks).split width interline =
        (Lines.stack interline ((Lines.ranges children breaks width).mapIdx fun i r =>
          hbox (drawn i (r.slice children)))).withColors o.foreground o.background ∧
      Consecutive breaks children.length 0 (Lines.ranges children breaks width) ∧
      KeepsWithin countedWidth children breaks width ∧
      HoldsMost countedWidth children breaks width ∧
      ((∀ c ∈ children, IsFlat c → 0 ≤ c.width) →
        KeepsWithin drawnWidth children breaks width) ∧
      ((∀ c ∈ children, IsFlat c → c.width ≤ 0) → HoldsMost drawnWidth children breaks width) := by
  refine ⟨?_, consecutive_ranges children breaks width, keepsWithin_countedWidth _ _ _,
    holdsMost_countedWidth _ _ _, keepsWithin_drawnWidth _ _, holdsMost_drawnWidth _ _⟩
  rw [split_of_wide (split_ne_self_iff.mp broken), rows_eq_mapIdx]

/-- Three letters with space between them, in lines of a letter and a half. -/
theorem split_greedy_letters :
    let _ : Turns ℚ := ⟨fun _ => (0, 1), 0⟩
    let letter : Box ℚ := .ofChar 'x' 1 1 0 (1 / 25)
    let children := [letter, .kern (3 / 10), letter, .kern (3 / 10), letter]
    let b := row children [1, 3]
    b.split (3 / 2) (1 / 5) ≠ b ∧
      b.split (3 / 2) (1 / 5) =
        (Lines.stack (1 / 5) ((Lines.ranges children [1, 3] (3 / 2)).mapIdx fun i r =>
          hbox (drawn i (r.slice children)))).withColors none none ∧
      Consecutive [1, 3] 5 0 (Lines.ranges children [1, 3] (3 / 2)) ∧
      KeepsWithin countedWidth children [1, 3] (3 / 2) ∧
      HoldsMost countedWidth children [1, 3] (3 / 2) ∧
      KeepsWithin drawnWidth children [1, 3] (3 / 2) := by
  intro turns letter children b
  have wide : (3 / 2 : ℚ) < b.width := by decide +kernel
  have broken : b.split (3 / 2) (1 / 5) ≠ b := split_ne_self_iff.mpr ⟨wide, by simp⟩
  have nonnegative : ∀ c ∈ children, 0 ≤ c.width := by decide +kernel
  obtain ⟨drawn, consecutive, within, most, keeps, -⟩ := split_greedy broken
  exact ⟨broken, drawn, consecutive, within, most, keeps fun c hc _ => nonnegative c hc⟩

/-- As drawn, lines are not greedy. A line that starts with a negative kern is drawn wider than it
counts, and one that starts with a kern has room left for a segment that it does not get. -/
theorem not_split_greedy :
    let _ : Turns ℚ := ⟨fun _ => (0, 1), 0⟩
    (¬∀ (children : List (Box ℚ)) (breaks : List Nat) (width interline : ℚ),
      (row children breaks).split width interline ≠ row children breaks →
        KeepsWithin drawnWidth children breaks width) ∧
      ¬∀ (children : List (Box ℚ)) (breaks : List Nat) (width interline : ℚ),
        (row children breaks).split width interline ≠ row children breaks →
          HoldsMost drawnWidth children breaks width := by
  intro turns
  let letter (width : ℚ) : Box ℚ := .ofChar 'x' width 1 0 (1 / 25)
  constructor
  · intro keeps
    let children := [letter 2, .kern (-1 / 2), letter 1, letter 1]
    have wide : (3 / 2 : ℚ) < (row children [1, 3]).width := by decide +kernel
    have held := keeps children [1, 3] (3 / 2) 0 (split_ne_self_iff.mpr ⟨wide, by simp⟩) 1 ⟨1, 4⟩
      (by decide +kernel) ⟨3, by simp⟩
    revert held
    decide +kernel
  · intro holds
    let children := [letter 1, .kern (1 / 2), letter 1, .kern (1 / 2), letter 1, .kern (1 / 2),
      letter 1]
    have wide : (5 / 2 : ℚ) < (row children [1, 3, 5]).width := by decide +kernel
    have nonnegative : ∀ c ∈ children, 0 ≤ c.width := by decide +kernel
    have segment : SegmentEnd [1, 3, 5] children.length 5 7 :=
      ⟨by simp, by simp [children], by simp [children], by simp⟩
    have held := holds children [1, 3, 5] (5 / 2) 0 (split_ne_self_iff.mpr ⟨wide, by simp⟩)
      nonnegative 1 ⟨3, 5⟩ (by decide +kernel) (by decide +kernel) 7 segment
    revert held
    decide +kernel

end Box

end FormulaInk
