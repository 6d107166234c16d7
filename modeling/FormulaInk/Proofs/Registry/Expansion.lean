import Mathlib
import FormulaInk.Registry

/-! Expansion of text commands as substitution. The body of a command is cut into pieces without a
look at the arguments, and then each parameter is replaced by its argument. -/

namespace FormulaInk.TextCommand

/-- A piece of a body: a number sign with a digit, or any character by itself. -/
inductive Piece where
  | character (ch : Char)
  | parameter (n : Fin 10)

namespace Piece

/-- How a piece is written in a body. -/
def text : Piece → List Char
  | character ch => [ch]
  | parameter n => ['#', Nat.digitChar n]

/-- What a piece is replaced by: a parameter by the argument of its number, if there is one. -/
def filled (args : List (List Char)) : Piece → List Char
  | character ch => [ch]
  | parameter n =>
    if h : 1 ≤ n.val ∧ n.val ≤ args.length then args.get ⟨n.val - 1, by omega⟩ else []

end Piece

/-- The pieces of a body from left to right. A number sign before a digit is part of a parameter. -/
inductive Pieces : List Char → List Piece → Prop
  | done : Pieces [] []
  | parameter {rest pieces} (n : Fin 10) : Pieces rest pieces →
      Pieces ('#' :: Nat.digitChar n :: rest) (.parameter n :: pieces)
  | character {ch rest pieces} : ¬(ch = '#' ∧ ∃ d ∈ rest.head?, d.isDigit) → Pieces rest pieces →
      Pieces (ch :: rest) (.character ch :: pieces)

section Digits

theorem isDigit_digitChar (n : Fin 10) : (Nat.digitChar n).isDigit := by
  rw [Nat.isDigit_digitChar]
  exact decide_eq_true n.isLt

theorem toNat_digitChar (n : Fin 10) : (Nat.digitChar n).toNat = 48 + n :=
  Nat.toNat_digitChar_of_lt_ten n.isLt

theorem digitChar_inj {n k : Fin 10} (h : Nat.digitChar n = Nat.digitChar k) : n = k := by
  have same := congrArg Char.toNat h
  rw [toNat_digitChar, toNat_digitChar] at same
  omega

theorem exists_digitChar {d : Char} (h : d.isDigit) : ∃ n : Fin 10, d = Nat.digitChar n := by
  have range : 48 ≤ d.toNat ∧ d.toNat ≤ 57 := Char.isDigit_iff_toNat.mp h
  refine ⟨⟨d.toNat - 48, by omega⟩, Char.toNat_inj.mp ?_⟩
  rw [toNat_digitChar]
  simp only
  omega

end Digits

section Bodies

variable {args : List (List Char)} {body rest front tail : List Char}
  {pieces other before behind : List Piece} {ch : Char}

theorem expandBody_parameter (n : Fin 10) (rest : List Char) :
    expandBody args ('#' :: Nat.digitChar n :: rest) =
      (Piece.parameter n).filled args ++ expandBody args rest := by
  rw [expandBody, if_pos (isDigit_digitChar n)]
  congr 1
  have zero : Nat.digitChar n = '0' ↔ n.val = 0 := by
    rw [← Char.toNat_inj, toNat_digitChar]
    show 48 + n.val = 48 ↔ n.val = 0
    omega
  have place : (Nat.digitChar n).toNat - '1'.toNat = n.val - 1 := by
    rw [toNat_digitChar]
    show 48 + n.val - 49 = n.val - 1
    omega
  simp only [zero, place, Piece.filled]
  by_cases first : n.val = 0
  · rw [if_pos first, dif_neg (by omega)]
  · rw [if_neg first]
    by_cases given : n.val ≤ args.length
    · rw [dif_pos ⟨by omega, given⟩, List.getElem?_eq_getElem (by omega)]
      rfl
    · rw [dif_neg (by omega), List.getElem?_eq_none (by omega)]
      rfl

theorem expandBody_character (h : ¬(ch = '#' ∧ ∃ d ∈ rest.head?, d.isDigit)) :
    expandBody args (ch :: rest) = ch :: expandBody args rest := by
  cases rest with
  | nil => simp [expandBody]
  | cons d rest =>
    by_cases sign : ch = '#'
    · subst sign
      have plain : ¬d.isDigit := fun digit => h ⟨rfl, d, rfl, digit⟩
      rw [expandBody, if_neg plain]
    · rw [expandBody]
      exact fun _ _ same _ => sign same

theorem Pieces.expandBody (h : Pieces body pieces) (args : List (List Char)) :
    expandBody args body = pieces.flatMap (Piece.filled args) := by
  induction h with
  | done => rfl
  | parameter n _ ih => rw [expandBody_parameter, ih, List.flatMap_cons]
  | character apart _ ih =>
    rw [expandBody_character apart, ih, List.flatMap_cons]
    rfl

theorem Pieces.text (h : Pieces body pieces) : pieces.flatMap Piece.text = body := by
  induction h with
  | done => rfl
  | parameter n _ ih =>
    rw [List.flatMap_cons, ih]
    rfl
  | character _ _ ih =>
    rw [List.flatMap_cons, ih]
    rfl

/-- Every body is cut into pieces. -/
theorem exists_pieces (body : List Char) : ∃ pieces, Pieces body pieces := by
  induction body using List.twoStepInduction with
  | nil => exact ⟨[], .done⟩
  | singleton ch => exact ⟨[.character ch], .character (by simp) .done⟩
  | cons_cons ch d rest ih ih' =>
    by_cases sign : ch = '#' ∧ d.isDigit
    · obtain ⟨rfl, digit⟩ := sign
      obtain ⟨n, rfl⟩ := exists_digitChar digit
      obtain ⟨pieces, inner⟩ := ih
      exact ⟨_, .parameter n inner⟩
    · obtain ⟨pieces, inner⟩ := ih' d
      exact ⟨_, .character (by simpa using sign) inner⟩

theorem Pieces.unique (h : Pieces body pieces) (h' : Pieces body other) : other = pieces := by
  induction h generalizing other with
  | done =>
    cases h'
    rfl
  | @parameter rest pieces n _ ih =>
    generalize spelled : '#' :: Nat.digitChar n :: rest = body at h'
    cases h' with
    | done => cases spelled
    | parameter k inner =>
      obtain ⟨digit, rfl⟩ : Nat.digitChar n = Nat.digitChar k ∧ rest = _ := by
        simpa using spelled
      rw [digitChar_inj digit, ih inner]
    | character apart _ =>
      cases spelled
      exact absurd ⟨rfl, _, rfl, isDigit_digitChar n⟩ apart
  | @character ch rest pieces apart _ ih =>
    cases h' with
    | parameter n _ => exact absurd ⟨rfl, _, rfl, isDigit_digitChar n⟩ apart
    | character _ inner => rw [ih inner]

/-- Pieces stay apart where two bodies are joined, unless a number sign meets a digit. -/
theorem Pieces.append (h : Pieces front before) (h' : Pieces tail behind)
    (apart : ¬(before.getLast? = some (.character '#') ∧ ∃ d ∈ tail.head?, d.isDigit)) :
    Pieces (front ++ tail) (before ++ behind) := by
  have onward {piece : Piece} {pieces : List Piece}
      (apart : ¬((piece :: pieces).getLast? = some (.character '#') ∧
        ∃ d ∈ tail.head?, d.isDigit)) :
      ¬(pieces.getLast? = some (.character '#') ∧ ∃ d ∈ tail.head?, d.isDigit) :=
    fun ⟨last, digit⟩ => apart ⟨by rw [List.getLast?_cons, last]; rfl, digit⟩
  induction h with
  | done => exact h'
  | parameter n _ ih => exact .parameter n (ih (onward apart))
  | @character ch rest pieces alone inner ih =>
    refine .character ?_ (ih (onward apart))
    rintro ⟨rfl, d, first, digit⟩
    cases rest with
    | nil =>
      cases inner
      exact apart ⟨rfl, d, first, digit⟩
    | cons next rest => exact alone ⟨rfl, d, first, digit⟩

end Bodies

/-- The body of a command is cut into pieces in one way, whatever the arguments are, and what the
command stands for are its pieces with every parameter replaced by its argument. Two bodies are
expanded one after the other unless the first ends in a number sign by itself and the second begins
with a digit. -/
theorem expand_eq_flatMap (count : Nat) (body : String) :
    ∃ pieces, Pieces body.toList pieces ∧ (∀ other, Pieces body.toList other → other = pieces) ∧
      pieces.flatMap Piece.text = body.toList ∧
      (∀ args, expand ⟨count, body⟩ args = pieces.flatMap (Piece.filled args)) ∧
      ∀ (more : String) (args : List (List Char)),
        ¬(pieces.getLast? = some (.character '#') ∧ ∃ d ∈ more.toList.head?, d.isDigit) →
        expand ⟨count, body ++ more⟩ args = expand ⟨count, body⟩ args ++ expand ⟨count, more⟩ args := by
  obtain ⟨pieces, cut⟩ := exists_pieces body.toList
  refine ⟨pieces, cut, fun other cut' => cut.unique cut', cut.text, cut.expandBody,
    fun more args apart => ?_⟩
  obtain ⟨behind, cut'⟩ := exists_pieces more.toList
  have joined := cut.append cut' apart
  rw [← String.toList_append] at joined
  calc expand ⟨count, body ++ more⟩ args
      = (pieces ++ behind).flatMap (Piece.filled args) := joined.expandBody args
    _ = pieces.flatMap (Piece.filled args) ++ behind.flatMap (Piece.filled args) :=
        List.flatMap_append
    _ = expand ⟨count, body⟩ args ++ expand ⟨count, more⟩ args := by
        rw [expand, expand, cut.expandBody, cut'.expandBody]

/-- A number sign by itself, a parameter with an argument that looks like one, a parameter without an
argument, and a number sign that meets no digit. -/
theorem expand_eq_flatMap_signs :
    (¬∃ d ∈ "x#0".toList.head?, d.isDigit) ∧
      expand ⟨1, "##1#2#" ++ "x#0"⟩ ["p#1".toList] = "#p#1#x".toList := by
  have letter : ¬∃ d ∈ "x#0".toList.head?, d.isDigit := by
    rintro ⟨d, first, digit⟩
    cases first
    exact absurd digit (by decide)
  obtain ⟨pieces, -, -, -, -, joined⟩ := expand_eq_flatMap 1 "##1#2#"
  refine ⟨letter, ?_⟩
  rw [joined "x#0" ["p#1".toList] fun meets => letter meets.2]
  rfl

end FormulaInk.TextCommand
