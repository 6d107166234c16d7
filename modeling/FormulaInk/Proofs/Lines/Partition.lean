import Mathlib.Data.List.TakeWhile
import FormulaInk.Box.Lines
import FormulaInk.Decimal.Binary

/-! Breaking a row into lines cuts it at break positions into pieces that hold something each. The
lines are the pieces in order, and all but the first lose the flat space that they start with. -/

namespace FormulaInk

theorem Range.mem_of_mem_slice {β : Type} {r : Range} {x : β} {xs : List β} (h : x ∈ r.slice xs) :
    x ∈ xs :=
  List.mem_of_mem_drop (List.mem_of_mem_take h)

namespace Lines

/-- Positions that cut a row of `length` children: the start, break positions within the row, and
the end. An empty row is one piece. -/
structure Cutting (breaks : List Nat) (length : Nat) (cuts : List Nat) : Prop where
  first : cuts.head? = some 0
  last : cuts.getLast? = some length
  increasing : 0 < length → cuts.Pairwise (· < ·)
  single : length = 0 → cuts = [0, 0]
  inner : ∀ cut ∈ cuts.tail.dropLast, cut ∈ breaks

/-- Ranges one behind the other up to `past`, with break positions within the row between them. -/
inductive Consecutive (breaks : List Nat) (past : Nat) : Nat → List Range → Prop
  | last (start : Nat) : Consecutive breaks past start [⟨start, past⟩]
  | cut {start cut : Nat} {rest : List Range} : start < cut → cut < past → cut ∈ breaks →
      Consecutive breaks past cut rest → Consecutive breaks past start (⟨start, cut⟩ :: rest)

/-- The positions between which ranges lie that start at `start`. -/
def cutsOf (start : Nat) (ranges : List Range) : List Nat := start :: ranges.map Range.past

namespace Consecutive

variable {breaks : List Nat} {past start : Nat} {ranges : List Range}

theorem getLast?_cutsOf (h : Consecutive breaks past start ranges) :
    (cutsOf start ranges).getLast? = some past := by
  induction h with
  | last start => rfl
  | cut _ _ _ _ ih => rwa [cutsOf, List.map_cons, List.getLast?_cons_cons]

theorem pairwise_cutsOf (h : Consecutive breaks past start ranges) (room : start < past) :
    (cutsOf start ranges).Pairwise (· < ·) := by
  induction h with
  | last start => simpa [cutsOf] using room
  | @cut start cut rest before after _ _ ih =>
    have later := ih after
    refine List.pairwise_cons.mpr ⟨fun p hp => ?_, later⟩
    obtain rfl | hp := List.mem_cons.mp hp
    · exact before
    · exact Nat.lt_trans before ((List.pairwise_cons.mp later).1 p hp)

theorem mem_breaks (h : Consecutive breaks past start ranges) :
    ∀ cut ∈ (ranges.map Range.past).dropLast, cut ∈ breaks := by
  induction h with
  | last start => simp
  | @cut start cut rest before after found behind ih =>
    intro p hp
    obtain ⟨r, more, rfl⟩ : ∃ r more, rest = r :: more := by cases behind <;> exact ⟨_, _, rfl⟩
    rw [List.map_cons, List.map_cons, List.dropLast_cons_cons] at hp
    obtain rfl | hp := List.mem_cons.mp hp
    · exact found
    · exact ih p hp

/-- Each range lies between two neighbouring positions. -/
theorem getElem?_cutsOf (h : Consecutive breaks past start ranges) {i : Nat} {r : Range}
    (hr : ranges[i]? = some r) :
    (cutsOf start ranges)[i]? = some r.first ∧ (cutsOf start ranges)[i + 1]? = some r.past := by
  induction h generalizing i with
  | last start =>
    obtain ⟨rfl, rfl⟩ : i = 0 ∧ ⟨start, past⟩ = r := by cases i <;> simp_all
    exact ⟨rfl, rfl⟩
  | cut _ _ _ _ ih =>
    cases i with
    | zero =>
      obtain rfl := Option.some.inj hr
      exact ⟨rfl, rfl⟩
    | succ i => exact ih hr

/-- What cuts a row from its start to its end cuts it into pieces. -/
theorem cutting {length : Nat} (h : Consecutive breaks length 0 ranges) :
    Cutting breaks length (cutsOf 0 ranges) where
  first := rfl
  last := h.getLast?_cutsOf
  increasing := h.pairwise_cutsOf
  single empty := by
    cases h with
    | last => rw [empty]; rfl
    | cut _ after _ _ => omega
  inner := h.mem_breaks

end Consecutive

variable {α : Type} [Scalar α]

/-- The ranges that remain are consecutive. The line that is being filled starts before the next
child, and so does the candidate for the next cut, which is a break position in that line. -/
theorem consecutive_rangesFrom (widths : List α) (breaks : List Nat) (width : α) (rest : List α)
    (index start : Nat) (sum : α) (candidate : Option Nat)
    (length : index + rest.length = widths.length)
    (within : ∀ cut ∈ candidate, start < cut ∧ cut < widths.length ∧ cut ∈ breaks) :
    Consecutive breaks widths.length start
      (rangesFrom widths breaks width rest index start sum candidate) := by
  induction rest generalizing index start sum candidate with
  | nil => exact .last start
  | cons w rest ih =>
    rw [List.length_cons] at length
    have remain : index + 1 + rest.length = widths.length := by omega
    have next : ∀ cut ∈ (if start < index ∧ index ∈ breaks then some index else candidate),
        start < cut ∧ cut < widths.length ∧ cut ∈ breaks := by
      intro cut found
      split at found
      · rename_i here
        obtain rfl := Option.mem_some.mp found
        exact ⟨here.1, by omega, here.2⟩
      · exact within cut found
    unfold rangesFrom
    dsimp only
    generalize (if start < index ∧ index ∈ breaks then some index else candidate) = candidate at next ⊢
    split
    · cases candidate with
      | none => exact ih _ _ _ none remain next
      | some cut =>
        obtain ⟨before, after, found⟩ := next cut rfl
        exact .cut before after found (ih _ _ _ none remain (by simp))
    · exact ih _ _ _ candidate remain next

theorem consecutive_ranges (children : List (Box α)) (breaks : List Nat) (width : α) :
    Consecutive breaks children.length 0 (ranges children breaks width) := by
  have all := consecutive_rangesFrom (children.map Box.width) breaks width
    (children.map Box.width) 0 0 (Scalar.whole 0) none (Nat.zero_add _) (by simp)
  rwa [List.length_map] at all

/-- Space whose height and depth come to zero. -/
def IsFlat (b : Box α) : Prop :=
  ∃ o, b = .strut o ∧ o.height + o.depth ≤ Scalar.whole 0 ∧ Scalar.whole 0 ≤ o.height + o.depth

theorem isLeading_iff (b : Box α) : isLeading b = true ↔ IsFlat b := by
  cases b <;> simp [isLeading, IsFlat]

/-- The rest of a piece without all the flat space that it starts with. -/
def Trimmed (piece line : List (Box α)) : Prop :=
  ∃ lead, piece = lead ++ line ∧ (∀ b ∈ lead, IsFlat b) ∧ ∀ b ∈ line.head?, ¬IsFlat b

theorem trimmed_dropWhile (piece : List (Box α)) : Trimmed piece (piece.dropWhile isLeading) := by
  refine ⟨piece.takeWhile isLeading, List.takeWhile_append_dropWhile.symm, ?_, ?_⟩
  · intro b hb
    exact (isLeading_iff b).mp (List.mem_takeWhile_imp hb)
  · intro b hb flat
    have kept := List.head?_dropWhile_not isLeading piece
    rw [Option.mem_def.mp hb] at kept
    simp [(isLeading_iff b).mpr flat] at kept

/-- What stands on a line of a piece: the first line keeps everything, the others are trimmed. -/
def IsLine (i : Nat) (piece line : List (Box α)) : Prop :=
  if i = 0 then line = piece else Trimmed piece line

/-- The lines of a row that is cut at `cuts`, each from the piece between two neighbouring cuts. -/
structure Partition (children : List (Box α)) (breaks cuts : List Nat)
    (lines : List (List (Box α))) : Prop where
  cutting : Cutting breaks children.length cuts
  count : lines.length + 1 = cuts.length
  isLine : ∀ (i : Nat) (line : List (Box α)), lines[i]? = some line →
    ∃ first past, cuts[i]? = some first ∧ cuts[i + 1]? = some past ∧
      IsLine i (Range.slice ⟨first, past⟩ children) line

/-- The rows of consecutive ranges hold the lines of a partition. -/
theorem exists_partition {children : List (Box α)} {breaks : List Nat} {ranges : List Range}
    (h : Consecutive breaks children.length 0 ranges) :
    ∃ cuts lines, rows children ranges = lines.map .hbox ∧
      Partition children breaks cuts lines := by
  obtain ⟨first, rest, rfl⟩ : ∃ first rest, ranges = first :: rest := by
    cases h <;> exact ⟨_, _, rfl⟩
  refine ⟨cutsOf 0 (first :: rest),
    first.slice children :: rest.map fun r => (r.slice children).dropWhile isLeading,
    by simp [rows], h.cutting, by simp [cutsOf], ?_⟩
  intro i line found
  cases i with
  | zero =>
    obtain rfl := Option.some.inj found
    obtain ⟨before, behind⟩ := h.getElem?_cutsOf (i := 0) rfl
    exact ⟨first.first, first.past, before, behind, rfl⟩
  | succ i =>
    rw [List.getElem?_cons_succ, List.getElem?_map] at found
    obtain ⟨r, here, rfl⟩ := Option.map_eq_some_iff.mp found
    obtain ⟨before, behind⟩ := h.getElem?_cutsOf (i := i + 1) here
    exact ⟨r.first, r.past, before, behind, trimmed_dropWhile _⟩

end Lines

namespace Box

open Lines

variable {α : Type} [Scalar α] {o : Outline α} {children : List (Box α)} {breaks : List Nat}
  {width interline : α}

theorem split_of_wide (wide : width < o.width ∧ breaks ≠ []) :
    (horizontal o children breaks).split width interline =
      (Lines.stack interline (rows children (ranges children breaks width))).withColors
        o.foreground o.background := by
  rw [split, lines?, if_pos wide]
  rfl

/-- A row is broken into lines if and only if it is too wide and has a break position. -/
theorem split_ne_self_iff :
    (horizontal o children breaks).split width interline ≠ horizontal o children breaks ↔
      width < o.width ∧ breaks ≠ [] := by
  by_cases wide : width < o.width ∧ breaks ≠ []
  · simp [split_of_wide wide, wide, Lines.stack, Box.stack, withColors, withOutline]
  · simp [split, lines?, wide]

/-- A row that does not stay as it is becomes a stack of lines, with a gap between neighbours. The
row is cut at break positions, and the lines are its pieces in order, all but the first without the
flat space at the start of the piece. -/
theorem split_partition
    (broken : (horizontal o children breaks).split width interline ≠
      horizontal o children breaks) :
    ∃ outline cuts lines,
      (horizontal o children breaks).split width interline =
          vertical outline ((lines.map hbox).intersperse
            (space (Scalar.whole 0) interline (Scalar.whole 0))) ∧
        Partition children breaks cuts lines := by
  obtain ⟨cuts, lines, held, partition⟩ :=
    exists_partition (consecutive_ranges children breaks width)
  have parts : (horizontal o children breaks).split width interline =
      (Lines.stack interline (lines.map hbox)).withColors o.foreground o.background := by
    rw [split_of_wide (split_ne_self_iff.mp broken), held]
  exact ⟨_, cuts, lines, parts, partition⟩

/-- Two letters with space between them, in lines of a letter and a half. -/
theorem split_partition_letters :
    let letter : Box Float32 :=
      .ofChar 'x' (Scalar.whole 1) (Scalar.whole 1) (Scalar.whole 0) (Scalar.ratio 4 100)
    let children := [letter, .kern (Scalar.ratio 3 10), letter]
    let b := row children [1]
    b.split (Scalar.ratio 3 2) (Scalar.ratio 1 5) ≠ b ∧
      ∃ outline cuts lines,
        b.split (Scalar.ratio 3 2) (Scalar.ratio 1 5) =
            vertical outline ((lines.map hbox).intersperse
              (space (Scalar.whole 0) (Scalar.ratio 1 5) (Scalar.whole 0))) ∧
          Partition children [1] cuts lines := by
  intro letter children b
  have wide : Scalar.ratio 3 2 <
      Scalar.whole 0 + Scalar.whole 1 + Scalar.ratio 3 10 + (Scalar.whole 1 : Float32) := by
    decide +kernel
  have broken : b.split (Scalar.ratio 3 2) (Scalar.ratio 1 5) ≠ b :=
    split_ne_self_iff.mpr ⟨wide, by simp⟩
  exact ⟨broken, split_partition broken⟩

end Box

end FormulaInk
