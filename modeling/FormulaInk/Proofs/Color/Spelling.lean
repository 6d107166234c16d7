import Mathlib
import FormulaInk.Color

/-! Spellings of colors: a number sign with two hexadecimal digits for each channel, or a name. A text
is read as a color exactly if it is spelled so, except that a plus sign may stand for the first of the
two digits. -/

namespace FormulaInk.Color

/-- The hexadecimal digits, each at the place of its value. -/
def digits : List Char := "0123456789abcdef".toList

/-- A hexadecimal digit with its value, in any case. -/
def Digit (c : Char) (n : Nat) : Prop := digits.idxOf? c.toLower = some n

/-- Two hexadecimal digits and the value of the number that they form. -/
def Pair (first second : Char) (v : UInt8) : Prop :=
  ∃ high low, Digit first high ∧ Digit second low ∧ v.toNat = 16 * high + low

/-- Two hexadecimal digits, or one with a plus sign before it. -/
def SignedPair (first second : Char) (v : UInt8) : Prop :=
  Pair first second v ∨ first = '+' ∧ Digit second v.toNat

/-- The colors that have names. -/
def names : List (String × Color) :=
  [("black", black), ("white", white), ("red", red), ("green", green), ("blue", blue),
    ("gray", gray), ("grey", gray)]

/-- A text without blanks around it that spells a color, where a channel is given by two characters
in a certain relation to it. -/
inductive Spells (channel : Char → Char → UInt8 → Prop) : List Char → Color → Prop
  | channels {r₁ r₂ g₁ g₂ b₁ b₂ : Char} {r g b : UInt8} : channel r₁ r₂ r → channel g₁ g₂ g →
      channel b₁ b₂ b → Spells channel ['#', r₁, r₂, g₁, g₂, b₁, b₂] ⟨r, g, b⟩
  | name {text : List Char} {c : Color} :
      (Text.lower (String.ofList text), c) ∈ names → Spells channel text c

section Digits

variable {c first second : Char} {n : Nat} {v : UInt8}

theorem idxOf?_of_not_ascii (h : 128 ≤ c.toNat) : digits.idxOf? c.toLower = none := by
  have upper : ¬c.isUpper := by
    intro letter
    simp only [Char.isUpper, decide_eq_true_eq] at letter
    have le : c.toNat ≤ 'Z'.toNat := letter.2
    exact absurd (Nat.le_trans h le) (by decide)
  rw [Char.toLower_eq_of_not_isUpper upper, List.idxOf?_eq_none_iff]
  intro member
  have small : digits.all (·.toNat < 128) := by decide
  exact absurd (of_decide_eq_true (List.all_eq_true.mp small c member)) (Nat.not_lt.mpr h)

theorem hexValue?_of_not_ascii (h : 128 ≤ c.toNat) : hexValue? c = none := by
  have above {d : Char} (small : d.toNat < 128) : ¬c ≤ d := fun le =>
    absurd (Nat.le_trans h (show c.toNat ≤ d.toNat from le)) (Nat.not_le.mpr small)
  rw [hexValue?, if_neg fun range => above (by decide) range.2,
    if_neg fun range => above (by decide) range.2, if_neg fun range => above (by decide) range.2]

theorem hexValue?_eq_some : hexValue? c = some n ↔ Digit c n := by
  suffices same : hexValue? c = digits.idxOf? c.toLower by rw [same, Digit]
  by_cases ascii : c.toNat < 128
  · have table : ∀ k < 128, hexValue? (Char.ofNat k) = digits.idxOf? (Char.ofNat k).toLower := by
      decide +kernel
    have entry := table c.toNat ascii
    rwa [Char.ofNat_toNat] at entry
  · rw [hexValue?_of_not_ascii (Nat.not_lt.mp ascii), idxOf?_of_not_ascii (Nat.not_lt.mp ascii)]

theorem Digit.lt (h : Digit c n) : n < 16 := (List.idxOf?_eq_some_iff.mp h).1

theorem Digit.ascii (h : Digit c n) : c.toNat < 128 := by
  refine Nat.lt_of_not_le fun above => ?_
  cases (idxOf?_of_not_ascii above).symm.trans h

theorem not_digit_plus : ¬Digit '+' n := by
  intro h
  have none : digits.idxOf? ('+').toLower = none := by decide
  cases none.symm.trans h

theorem digit_hexDigit (h : n < 16) : Digit (hexDigit n) n := by
  have table : ∀ n < 16, digits.idxOf? (hexDigit n).toLower = some n := by decide +kernel
  exact table n h

/-- The text of a channel is a pair of digits with its value. -/
theorem pair_channelText (v : UInt8) : Pair (hexDigit (v.toNat / 16)) (hexDigit (v.toNat % 16)) v := by
  have size := v.toNat_lt
  exact ⟨_, _, digit_hexDigit (by omega), digit_hexDigit (by omega), by omega⟩

theorem SignedPair.ascii (h : SignedPair first second v) :
    first.toNat < 128 ∧ second.toNat < 128 := by
  obtain ⟨high, low, hf, hs, -⟩ | ⟨rfl, hs⟩ := h
  · exact ⟨hf.ascii, hs.ascii⟩
  · exact ⟨by decide, hs.ascii⟩

theorem ofNat_eq_iff (h : n < 256) : UInt8.ofNat n = v ↔ v.toNat = n := by
  rw [← UInt8.toNat_inj, UInt8.toNat_ofNat_of_lt' h, eq_comm]

theorem channel?_eq_some : channel? first second = some v ↔ SignedPair first second v := by
  by_cases sign : first = '+'
  · subst sign
    rw [channel?, if_pos rfl, Option.map_eq_some_iff]
    constructor
    · rintro ⟨low, read, value⟩
      rw [hexValue?_eq_some] at read
      rw [ofNat_eq_iff (by have := read.lt; omega)] at value
      exact .inr ⟨rfl, value ▸ read⟩
    · rintro (⟨high, low, plus, -⟩ | ⟨-, read⟩)
      · exact absurd plus not_digit_plus
      · exact ⟨v.toNat, hexValue?_eq_some.mpr read, UInt8.ofNat_toNat⟩
  · rw [channel?, if_neg sign]
    simp only [Option.bind_eq_bind, Option.bind_eq_some_iff, hexValue?_eq_some, Option.some.injEq]
    constructor
    · rintro ⟨high, hf, low, hs, value⟩
      have bound : 16 * high + low < 256 := by
        have := hf.lt
        have := hs.lt
        omega
      exact .inl ⟨high, low, hf, hs, (ofNat_eq_iff bound).mp value⟩
    · rintro (⟨high, low, hf, hs, value⟩ | ⟨plus, -⟩)
      · refine ⟨high, hf, low, hs, ?_⟩
        rw [← value, UInt8.ofNat_toNat]
      · exact absurd plus sign

end Digits

section Texts

variable {s : String} {c : Color} {text : List Char} {channel other : Char → Char → UInt8 → Prop}

theorem ofName?_eq_some : ofName? s = some c ↔ (Text.lower s, c) ∈ names := by
  unfold ofName?
  split
  case h_8 => simp_all [names]
  all_goals
    rename_i same
    rw [same]
    simp [names, eq_comm]

/-- No name begins with a number sign. -/
theorem head?_ne_of_name (h : (Text.lower (String.ofList text), c) ∈ names) :
    text.head? ≠ some '#' := by
  intro first
  obtain ⟨rest, rfl⟩ := List.head?_eq_some_iff.mp first
  have spelled : Text.lower (String.ofList ('#' :: rest)) =
      String.ofList ('#' :: rest.map Char.toLower) := by
    rw [Text.lower, String.toList_ofList]
    rfl
  rw [spelled] at h
  have plain : names.all fun entry => entry.1.toList.head? != some '#' := by decide
  have other := List.all_eq_true.mp plain _ h
  simp at other

theorem ofString_of_name (h : (Text.lower (String.ofList (Text.trim s.toList)), c) ∈ names) :
    ofString s = .ok c := by
  unfold ofString
  simp only
  split
  · rename_i hex number
    exact absurd (by rw [number]; rfl) (head?_ne_of_name h)
  · rw [ofName?_eq_some.mpr h]

theorem ofString_of_channels {r₁ r₂ g₁ g₂ b₁ b₂ : Char} {r g b : UInt8}
    (h : Text.trim s.toList = ['#', r₁, r₂, g₁, g₂, b₁, b₂]) (hr : SignedPair r₁ r₂ r)
    (hg : SignedPair g₁ g₂ g) (hb : SignedPair b₁ b₂ b) : ofString s = .ok ⟨r, g, b⟩ := by
  have ascii : [r₁, r₂, g₁, g₂, b₁, b₂].all (·.toNat < 128) := by
    simp [hr.ascii, hg.ascii, hb.ascii]
  simp only [ofString, h, ascii, channel?_eq_some.mpr hr, channel?_eq_some.mpr hg,
    channel?_eq_some.mpr hb, if_true]

theorem ofString_eq_ok : ofString s = .ok c ↔ Spells SignedPair (Text.trim s.toList) c := by
  constructor
  · intro h
    unfold ofString at h
    simp only at h
    split at h
    · rename_i hex number
      rw [number]
      split at h
      · split at h
        · split at h
          · rename_i r g b hr hg hb
            cases h
            exact .channels (channel?_eq_some.mp hr) (channel?_eq_some.mp hg)
              (channel?_eq_some.mp hb)
          · cases h
        · cases h
      · cases h
    · split at h
      · rename_i named
        cases h
        exact .name (ofName?_eq_some.mp named)
      · cases h
  · intro h
    generalize spelled : Text.trim s.toList = text at h
    cases h with
    | channels hr hg hb => exact ofString_of_channels spelled hr hg hb
    | name member => exact ofString_of_name (by rwa [spelled])

theorem Spells.mono (h : Spells channel text c)
    (le : ∀ first ∈ text, ∀ second v, channel first second v → other first second v) :
    Spells other text c := by
  cases h with
  | channels hr hg hb =>
    exact .channels (le _ (by simp) _ _ hr) (le _ (by simp) _ _ hg) (le _ (by simp) _ _ hb)
  | name member => exact .name member

theorem trim_subset (text : List Char) : Text.trim text ⊆ text := by
  intro c member
  have inside := (List.dropWhile_suffix _).subset (List.mem_reverse.mp member)
  exact (List.dropWhile_suffix _).subset (List.mem_reverse.mp inside)

theorem trim_of_ends {first last : Char} {inner : List Char} (hf : ¬Text.isBlank first)
    (hl : ¬Text.isBlank last) :
    Text.trim (first :: (inner ++ [last])) = first :: (inner ++ [last]) := by
  rw [Text.trim, List.dropWhile_cons_of_neg hf, ← List.cons_append, List.reverse_append,
    List.reverse_singleton, List.singleton_append, List.dropWhile_cons_of_neg hl]
  simp

theorem not_isBlank_hexDigit {n : Nat} (h : n < 16) : ¬Text.isBlank (hexDigit n) := by
  have table : ∀ n < 16, ¬Text.isBlank (hexDigit n) := by decide
  exact table n h

theorem trim_text (c : Color) : Text.trim c.text.toList = c.text.toList := by
  have last : c.b.toNat % 16 < 16 := Nat.mod_lt _ (by decide)
  have spelled : c.text.toList =
      '#' :: (channelText c.r ++ channelText c.g ++ [hexDigit (c.b.toNat / 16)] ++
        [hexDigit (c.b.toNat % 16)]) := by
    rw [text, String.toList_ofList]
    rfl
  rw [spelled]
  exact trim_of_ends (by decide) (not_isBlank_hexDigit last)

theorem spells_text (c : Color) : Spells Pair (Text.trim c.text.toList) c := by
  rw [trim_text, text, String.toList_ofList]
  exact .channels (pair_channelText c.r) (pair_channelText c.g) (pair_channelText c.b)

end Texts

/-- A text is read as a color exactly if it spells the color between blanks, where a plus sign may
stand for the first digit of a channel; so a text without plus signs is read exactly if it spells a
color. The text of a color is read back. -/
theorem ofString_eq_ok_iff (s : String) (c : Color) :
    (ofString s = .ok c ↔ Spells SignedPair (Text.trim s.toList) c) ∧
    ('+' ∉ s.toList → (ofString s = .ok c ↔ Spells Pair (Text.trim s.toList) c)) ∧
    ofString c.text = .ok c := by
  refine ⟨ofString_eq_ok, fun unsigned => ?_, ?_⟩
  · rw [ofString_eq_ok]
    refine ⟨fun h => h.mono fun first member second v pair => ?_, fun h => h.mono fun _ _ _ _ => .inl⟩
    obtain pair | ⟨rfl, -⟩ := pair
    · exact pair
    · exact absurd (trim_subset _ member) unsigned
  · exact ofString_eq_ok.mpr ((spells_text c).mono fun _ _ _ _ => .inl)

/-- Digits in both cases, with blanks around them. -/
theorem ofString_eq_ok_iff_blanks :
    '+' ∉ " #A0b1c2\n".toList ∧ ofString " #A0b1c2\n" = .ok ⟨160, 177, 194⟩ := by
  have unsigned : '+' ∉ " #A0b1c2\n".toList := by decide
  refine ⟨unsigned, ((ofString_eq_ok_iff _ _).2.1 unsigned).mpr ?_⟩
  exact .channels ⟨10, 0, rfl, rfl, rfl⟩ ⟨11, 1, rfl, rfl, rfl⟩ ⟨12, 2, rfl, rfl, rfl⟩

/-- A text with plus signs for the first digits is read, and it spells no color. -/
theorem not_ofString_eq_ok_iff :
    ¬∀ (s : String) (c : Color), ofString s = .ok c ↔ Spells Pair (Text.trim s.toList) c := by
  intro exactly
  have read : ofString "#+1+2+3" = .ok ⟨1, 2, 3⟩ := by
    refine ofString_eq_ok.mpr (.channels ?_ ?_ ?_) <;> exact .inr ⟨rfl, rfl⟩
  have spelled : Spells Pair ['#', '+', '1', '+', '2', '+', '3'] ⟨1, 2, 3⟩ :=
    (exactly _ _).mp read
  cases spelled with
  | channels first =>
    obtain ⟨high, low, plus, -⟩ := first
    exact not_digit_plus plus
  | name member => simp [names, Text.lower] at member

end FormulaInk.Color
