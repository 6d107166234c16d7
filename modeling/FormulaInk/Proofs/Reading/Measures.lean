import Mathlib
import FormulaInk.Proofs.Decimal.Range
import FormulaInk.Proofs.Reading.Closed

/-! The numbers of what is read. Angles and factors are checked to be finite, and the heights and
depths of struts are zero. The width of a strut is the number of a length text. That has no names
for infinite and missing numbers, but it is not checked: it is finite exactly if the literal is
smaller than what rounds to the power of two above all finite numbers. -/

namespace FormulaInk

/-- What the number of a length text says. -/
def Length.literal? (text : List Char) : Option Decimal.Literal :=
  Decimal.Literal.ofText? (Text.trim ((Text.trim text).takeWhile (!Char.isAlpha ·)))

/-- The number of a length text is small enough for 32 bits. -/
def Length.InRange (text : List Char) : Prop :=
  ∃ negative digits exponent, literal? text = some (.finite negative digits exponent) ∧
    (digits : ℚ) * 10 ^ exponent < 2 ^ 128 - 2 ^ 103

/-- The numbers of one node. -/
structure Atom.Measured (a : Atom Float32) : Prop where
  rotated : ∀ degrees base, a = .rotated degrees base → Decimal.isFinite degrees = true
  scaled : ∀ x y base, a = .scaled x y base →
    Decimal.isFinite x = true ∧ Decimal.isFinite y = true
  strut : ∀ width height depth, a = .strut width height depth →
    Decimal.isFinite height.value = true ∧ Decimal.isFinite depth.value = true ∧
      (∃ text, Length.ofText? text = some width) ∧
      ∀ text, Length.ofText? text = some width →
        (Decimal.isFinite width.value = true ↔ Length.InRange text)

section Literals

open Decimal

theorem Decimal.Literal.finite_of_number? {negative : Bool} {cs : List Char} {literal : Literal}
    (h : Literal.number? negative cs = some literal) :
    ∃ digits exponent, literal = .finite negative digits exponent := by
  unfold Literal.number? at h
  dsimp only at h
  split at h
  all_goals
    split at h
    · cases h
    · obtain ⟨exponent, -, rfl⟩ := Option.map_eq_some_iff.mp h
      exact ⟨_, _, rfl⟩

theorem ofList_map_toLower_ne {cs : List Char} {name : String} (letters : ∀ c ∈ cs, ¬c.isAlpha)
    (letter : name.toList.any Char.isAlpha = true) :
    String.ofList (cs.map Char.toLower) ≠ name := by
  rintro rfl
  rw [String.toList_ofList, List.any_map, List.any_eq_true] at letter
  obtain ⟨c, member, letter⟩ := letter
  rw [Function.comp_apply, Char.isAlpha_toLower_eq_isAlpha] at letter
  exact letters c member letter

/-- Infinite and missing numbers are written with letters. -/
theorem Decimal.Literal.finite_of_ofText? {cs : List Char} {literal : Literal}
    (h : Literal.ofText? cs = some literal) (letters : ∀ c ∈ cs, ¬c.isAlpha) :
    ∃ negative digits exponent, literal = .finite negative digits exponent := by
  unfold Literal.ofText? at h
  dsimp only at h
  split at h
  · rename_i number
    obtain rfl := Option.some.inj h
    obtain ⟨digits, exponent, rfl⟩ := finite_of_number? number
    exact ⟨_, digits, exponent, rfl⟩
  · split at h
    case h_4 => cases h
    all_goals
      rename_i same
      refine absurd same (ofList_map_toLower_ne (fun c hc => letters c ?_) (by decide))
      split at hc <;> simp_all

theorem Text.mem_of_mem_trim {c : Char} {cs : List Char} (h : c ∈ Text.trim cs) : c ∈ cs := by
  rw [Text.trim, List.mem_reverse] at h
  have back := (List.dropWhile_sublist _).mem h
  exact (List.dropWhile_sublist _).mem (List.mem_reverse.mp back)

theorem Length.literal_of_ofText? {text : List Char} {length : Length Float32}
    (h : Length.ofText? text = some length) :
    ∃ negative digits exponent, literal? text = some (.finite negative digits exponent) ∧
      length.value = (Literal.finite negative digits exponent).toFloat32 := by
  unfold Length.ofText? at h
  dsimp only at h
  split at h
  · rename_i value unit number known
    obtain rfl := Option.some.inj h
    obtain ⟨literal, read, rfl⟩ := Option.map_eq_some_iff.mp number
    have letters : ∀ c ∈ Text.trim ((Text.trim text).takeWhile (!Char.isAlpha ·)), ¬c.isAlpha :=
      fun c hc => by simpa using List.mem_takeWhile_imp (Text.mem_of_mem_trim hc)
    obtain ⟨negative, digits, exponent, rfl⟩ := Literal.finite_of_ofText? read letters
    exact ⟨negative, digits, exponent, read, rfl⟩
  · cases h

theorem Length.isFinite_iff {text : List Char} {length : Length Float32}
    (h : Length.ofText? text = some length) :
    isFinite length.value = true ↔ InRange text := by
  obtain ⟨negative, digits, exponent, read, value⟩ := literal_of_ofText? h
  have bound : (finiteBound : ℚ) = 2 ^ 128 - 2 ^ 103 := by norm_num [finiteBound]
  rw [value, isFinite_toFloat32, bound]
  constructor
  · exact fun small => ⟨negative, digits, exponent, read, small⟩
  · rintro ⟨negative', digits', exponent', read', small⟩
    rw [read] at read'
    cases read'
    exact small

end Literals

namespace Source

theorem isFinite_of_numberOf {owner : Nat} {text : List Char} {x : Float32}
    (h : numberOf owner text = .ok x) : Decimal.isFinite x = true := by
  unfold numberOf at h
  split at h
  · split at h
    · obtain rfl := Except.ok.inj h
      assumption
    · cases h
  · cases h

namespace Plain

theorem exists_of_readGroup {α : Type} {mode : Mode} {owner : Nat}
    {interpret : List Char → Except ParseError α} {c : Cursor} {a : α}
    (h : (readGroup mode owner interpret c).1 = .ok a) : ∃ raw, interpret raw = .ok a := by
  unfold readGroup at h
  split at h
  · exact ⟨_, h⟩
  · cases h

theorem Finds.isFinite_number {x : Float32} (h : Plain.number.Finds x) :
    Decimal.isFinite x = true := by
  obtain ⟨t, mode, owner, c, read⟩ := h
  obtain ⟨raw, number⟩ := exists_of_readGroup read
  exact isFinite_of_numberOf number

theorem Finds.isFinite_optionalNumber {x : Float32} (h : Plain.optionalNumber.Finds (some x)) :
    Decimal.isFinite x = true := by
  obtain ⟨t, mode, owner, c, found⟩ := h
  change (readOptional owner c).1 = .ok (some x) at found
  unfold readOptional at found
  split at found
  · split at found
    · rename_i raw _ _
      cases number : numberOf owner raw with
      | ok y =>
        rw [number] at found
        obtain rfl := Option.some.inj (Except.ok.inj found)
        exact isFinite_of_numberOf number
      | error e =>
        rw [number] at found
        cases found
    · cases found
  · cases Except.ok.inj found

theorem Finds.exists_length {length : Length Float32} (h : Plain.length.Finds length) :
    ∃ text, Length.ofText? text = some length := by
  obtain ⟨t, mode, owner, c, read⟩ := h
  obtain ⟨raw, found⟩ := exists_of_readGroup read
  unfold lengthOf at found
  split at found
  · obtain rfl := Except.ok.inj found
    exact ⟨raw, by assumption⟩
  · cases found

end Plain

end Source

namespace Atom

open Source

theorem Measured.of_built {P : Atom Float32 → Prop} {a : Atom Float32} (h : Built P a) :
    a.Measured where
  rotated degrees base same := (h.rotated degrees base same).isFinite_number
  scaled x y base same := by
    obtain ⟨first, rfl | second⟩ := h.scaled x y base same
    · exact ⟨first.isFinite_number, first.isFinite_number⟩
    · exact ⟨first.isFinite_number, second.isFinite_optionalNumber⟩
  strut width height depth same := by
    obtain ⟨read, top, bottom⟩ := h.strut width height depth same
    have zero : Decimal.isFinite (Float32.ofNat 0) = true :=
      (Decimal.isFinite_ofScientific 0 0 false).mpr (by norm_num [Decimal.finiteBound])
    rw [top, bottom]
    exact ⟨zero, zero, read.exists_length, fun text width => Length.isFinite_iff width⟩

theorem closed_measured : Closed fun a => ∀ n ∈ a.nodes, n.Measured := by
  refine .nodes ?_ ?_ ?_ ?_ ?_ ?_ ?_ Measured.of_built
  all_goals intros; constructor <;> simp

end Atom

section Struts

variable {text : String}

/-- A length in quads. -/
theorem Length.ofText?_em {literal : Decimal.Literal}
    (unit : (Text.trim text.toList).dropWhile (!Char.isAlpha ·) = ['e', 'm'])
    (number : Length.literal? text.toList = some literal) :
    Length.ofText? text.toList = some ⟨.em, literal.toFloat32⟩ := by
  unfold Length.literal? at number
  simp only [Length.ofText?, Decimal.float32?, number, unit]
  rfl

namespace Source

/-- A strut by itself is read the same from all tables, at every depth and in both modes. -/
theorem Reads.hspace {t : Tables} {d : Nat} {mode : Mode} {m : Memo} {length : Length Float32}
    (inside : bracedText 0 (text.toList ++ ['}']) = (text.toList, some []))
    (known : Length.ofText? text.toList = some length) :
    Reads t d mode .whole (.start ("\\hspace\x7b" ++ text ++ "\x7d").toList) m
      ⟨.ok [.strut length ⟨length.unit, Float32.ofNat 0⟩ ⟨length.unit, Float32.ofNat 0⟩],
        ⟨[], text.toList.length + 9⟩, m⟩ [] := by
  let behind := "space".toList ++ '{' :: (text.toList ++ ['}'])
  have chars : ("\\hspace\x7b" ++ text ++ "\x7d").toList = '\\' :: 'h' :: behind := by
    simp only [String.toList_append]
    rfl
  have name : nameOf behind = "space".toList := nameOf_append (by simp) _
  have skipped : (afterName behind 2).skip = ⟨'{' :: (text.toList ++ ['}']), 7⟩ := by
    rw [afterName, name]
    rfl
  have raw : Plain.length.read t mode 0 (afterName behind 2) =
      (.ok length, ⟨[], 7 + text.toList.length + 2⟩) := by
    change Plain.readGroup mode 0 (lengthOf 0) _ = _
    rw [readGroup_eq, rawGroup_of_braces skipped inside]
    simp only [Except.bind, lengthOf, known]
  have width : Reads t d mode (.param 0 (.plain .length)) (afterName behind 2) m
      (.ofFound (Plain.length.read t mode 0 (afterName behind 2)) m) [] := .plain
  have construct : Construct.ofName? (String.ofList ('h' :: nameOf behind)) =
      Construct.ofName? "hspace" := by
    rw [name]
    rfl
  have strut : Reads t d mode (.command 0) ⟨'h' :: behind, 1⟩ m
      ⟨.ok (.strut length ⟨length.unit, Float32.ofNat 0⟩ ⟨length.unit, Float32.ofNat 0⟩),
        ⟨[], 7 + text.toList.length + 2⟩, m⟩ [] := by
    rw [raw] at width
    exact .construct (by decide) construct (.cons width .nil)
  have stop : text.toList.length + 9 = 7 + text.toList.length + 2 := by omega
  have other : some '\\' ≠ (none : Option Char) := by simp
  rw [chars, stop]
  exact .item rfl other (.another (by decide) (by decide) (.command strut)) (.ended rfl (.inl rfl))

end Source

theorem Registry.readAt_hspace (r : Registry) (depth : Nat) (mode : Source.Mode)
    {length : Length Float32}
    (inside : Source.bracedText 0 (text.toList ++ ['}']) = (text.toList, some []))
    (known : Length.ofText? text.toList = some length) :
    (r.readAt depth mode ("\\hspace\x7b" ++ text ++ "\x7d")).result =
      .ok [.strut length ⟨length.unit, Float32.ofNat 0⟩ ⟨length.unit, Float32.ofNat 0⟩] := by
  rw [readAt_of_reads (.hspace inside known)]
  rfl

end Struts

namespace Registry

/-- The numbers of what is read are finite, at every depth and in both modes, but for widths of
struts that are too large to be told from infinity. The width of a strut comes from a length text,
and it is finite exactly if the number of that text is below the bound from which numbers are
rounded to infinity. -/
theorem readAt_measured {r : Registry} (h : r.Reached) {depth : Nat} {mode : Source.Mode}
    {source : String} {items : List (Atom Float32)}
    (found : (r.readAt depth mode source).result = .ok items) :
    ∀ a ∈ items, ∀ n ∈ a.nodes, n.Measured :=
  h.holds_readAt Atom.closed_measured found

/-- A strut behind a formula that was read and kept. -/
theorem readAt_measured_strut :
    let r := (empty.call (.register "x" "a")).call (.get "x")
    let items : List (Atom Float32) :=
      [.strut ⟨.em, (Decimal.Literal.finite true 15 (-1)).toFloat32⟩ ⟨.em, Float32.ofNat 0⟩
        ⟨.em, Float32.ofNat 0⟩]
    r.Reached ∧ (r.readAt 1 .lenient ("\\hspace\x7b" ++ " -1.5 em" ++ "\x7d")).result = .ok items ∧
      ∀ a ∈ items, ∀ n ∈ a.nodes, n.Measured := by
  intro r items
  have reached : r.Reached := .call _ (.call _ .empty)
  have found : (r.readAt 1 .lenient ("\\hspace\x7b" ++ " -1.5 em" ++ "\x7d")).result = .ok items :=
    readAt_hspace r 1 .lenient (by rfl) (Length.ofText?_em (by decide) (by rfl))
  exact ⟨reached, found, readAt_measured reached found⟩

/-- A width of ten to the 39th is infinite. -/
theorem not_readAt_measured :
    ¬∀ (r : Registry) (depth : Nat) (mode : Source.Mode) (source : String)
      (items : List (Atom Float32)), r.Reached →
      (r.readAt depth mode source).result = .ok items → ∀ a ∈ items, ∀ n ∈ a.nodes,
        ∀ width height depth, n = .strut width height depth →
          Decimal.isFinite width.value = true := by
  intro claim
  have number : Length.literal? "1000000000000000000000000000000000000000em".toList =
      some (.finite false (10 ^ 39) 0) := by rfl
  have found := readAt_hspace empty 0 .strict (by rfl) (Length.ofText?_em (by decide) number)
  have finite := claim empty 0 .strict _ _ .empty found _ (List.mem_singleton_self _) _
    (by rw [Atom.nodes_eq]; exact List.mem_cons_self) _ _ _ rfl
  rw [Decimal.isFinite_toFloat32] at finite
  norm_num [Decimal.finiteBound] at finite

end Registry

end FormulaInk
