import Mathlib
import FormulaInk.Proofs.Reading.Braces
import FormulaInk.Proofs.Reading.Ending

/-! Strict reading and braces. A source that is read strictly closes every group that it opens, and
no other, unless a command takes a brace as its argument. -/

namespace FormulaInk

namespace Source

/-- The command whose name begins a text takes a brace by itself. A delimiter may be any character,
and so may a text or an argument of a text command, unless it is an opening brace. -/
inductive TakesBrace (t : Tables) (rest : List Char) : Prop where
  | delimiter {n : Nat} {ch : Char} : String.ofList (nameOf rest) = "middle" →
      (afterName rest n).rest.find? (!Text.isBlank ·) = some ch → ch = '{' ∨ ch = '}' →
      TakesBrace t rest
  | text {n : Nat} : String.ofList (nameOf rest) ∈ ["text", "mbox", "textrm"] →
      (afterName rest n).rest.find? (!Text.isBlank ·) = some '}' → TakesBrace t rest
  | argument {command : TextCommand} {before owner n : Nat} {args : List (List Char)}
      {place : Cursor} : Construct.ofName? (String.ofList (nameOf rest)) = none →
      t.symbols.get? (String.ofList (nameOf rest)) = none →
      t.commands.get? (String.ofList (nameOf rest)) = some command → before < command.args →
      textArgs .strict owner before (afterName rest n) = (.ok args, place) →
      place.rest.find? (!Text.isBlank ·) = some '}' → TakesBrace t rest

/-- A source without comments in which no backslash hides a brace and no command takes one by
itself. -/
structure Orderly (t : Tables) (source : List Char) : Prop where
  unescaped : Unescaped source
  free : ∀ rest, '\\' :: rest <:+ source → ¬TakesBrace t rest

/-- A source without comments in which no command takes a brace by itself. -/
structure Legible (t : Tables) (source : List Char) : Prop where
  uncommented : uncommented source
  free : ∀ rest, '\\' :: rest <:+ source → ¬TakesBrace t rest

theorem Legible.behind {t : Tables} {source left : List Char} {n : Nat} (h : Legible t source)
    (walks : Walks n source left) : Legible t left :=
  ⟨walks.uncommented h.uncommented, fun rest behind => h.free rest (behind.trans walks.suffix)⟩

/-- The inside of a group is as legible as the group. -/
theorem Legible.inside {t : Tables} {rest : List Char} (h : Legible t ('{' :: rest)) :
    Legible t rest :=
  ⟨(uncommented_cons h.uncommented (by decide)).2,
    fun command behind => h.free command (behind.trans (List.suffix_cons _ _))⟩

theorem Orderly.legible {t : Tables} {source : List Char} (h : Orderly t source) :
    Legible t source :=
  ⟨h.unescaped.uncommented, h.free⟩

/-- Whether a parameter takes no brace by itself from the front of a text. -/
def Param.Clear (p : Param) (text : List Char) : Prop :=
  match p with
  | .plain p => p.Clear text
  | .atom | .optionalAtom => True

/-- Whether of some parameters the first takes no brace by itself from the front of a text, and the
others from no text. -/
def ClearAll (ps : List Param) (text : List Char) : Prop :=
  (∀ p ∈ ps.head?, p.Clear text) ∧ ∀ p ∈ ps.tail, ∀ text, p.Clear text

theorem ClearAll.tail {p : Param} {ps : List Param} {text : List Char} (h : ClearAll (p :: ps) text)
    (text' : List Char) : ClearAll ps text' :=
  ⟨fun q first => h.2 q (List.mem_of_mem_head? first) text',
    fun q later => h.2 q (List.mem_of_mem_tail later)⟩

theorem walks_command {ch : Char} (letter : ch.isAlpha) (rest : List Char) (n : Nat) :
    Walks 0 ('\\' :: ch :: rest) (afterName rest (n + 1)).rest := by
  rw [← afterName_cons letter]
  exact walks_name (by simp [nameOf_cons letter]) n

/-- The built-in commands with a plain parameter for a text or a delimiter have no other
parameter. -/
theorem params_of_ofName? {name : String} {construct : Construct}
    (h : Construct.ofName? name = some construct) :
    (name = "middle" ∧ construct.params = [.plain .delimiter]) ∨
      (name ∈ ["text", "mbox", "textrm"] ∧ construct.params = [.plain .text]) ∨
      ∀ p ∈ construct.params, ∀ text, p.Clear text := by
  unfold Construct.ofName? at h
  split at h <;> cases h <;>
    simp [Construct.text, Construct.wrapper, Construct.constant, Construct.styled, Param.Clear,
      Plain.Clear]

theorem clear_params {t : Tables} {ch : Char} {rest : List Char} {construct : Construct}
    (free : ¬TakesBrace t (ch :: rest)) (letter : ch.isAlpha) (n : Nat)
    (h : Construct.ofName? (String.ofList (ch :: nameOf rest)) = some construct) :
    ClearAll construct.params (afterName rest (n + 1)).rest := by
  rw [← nameOf_cons letter] at h
  rw [← afterName_cons letter]
  obtain ⟨name, params⟩ | ⟨name, params⟩ | clear := params_of_ofName? h
  · rw [params]
    refine ⟨fun p first => ?_, by simp⟩
    cases first
    exact fun ch found => ⟨fun brace => free (.delimiter name found (.inl brace)),
      fun brace => free (.delimiter name found (.inr brace))⟩
  · rw [params]
    refine ⟨fun p first => ?_, by simp⟩
    cases first
    exact fun found => free (.text name found)
  · exact ⟨fun p first => clear p (List.mem_of_mem_head? first) _,
      fun p later text => clear p (List.mem_of_mem_tail later) text⟩

namespace Task

/-- The characters that were read before a task and belong to what it reads. -/
def lead : Task → List Char
  | step _ ch _ | atom ch _ => [ch]
  | command _ => ['\\']
  | _ => []

/-- The brace at which a task ends that reads the inside of a group. -/
def trail : Task → List Char
  | sequence close .. => if close = some '}' then ['}'] else []
  | _ => []

theorem openAfter_trail (k : Task) : openAfter k.trail.length k.trail = some 0 := by
  unfold trail
  split
  · split <;> rfl
  · rfl

/-- Whether a task that begins at the front of a text takes no brace by itself. -/
def Clear (t : Tables) (c : Cursor) : Task → Prop
  | sequence close .. => close ≠ some '{' ∧ close ≠ some '\\'
  | atom ch _ => ch ≠ '}'
  | lookup name _ => ∀ command, t.symbols.get? name = none → t.commands.get? name = some command →
      ∀ before < command.args, ∀ owner args place,
        textArgs .strict owner before c = (.ok args, place) →
        place.rest.find? (!Text.isBlank ·) ≠ some '}'
  | param _ p => p.Clear c.rest
  | args _ ps => ClearAll ps c.rest
  | _ => True

theorem clear_lookup {t : Tables} {ch : Char} {rest : List Char}
    (free : ¬TakesBrace t (ch :: rest)) (letter : ch.isAlpha) (n start : Nat)
    (other : Construct.ofName? (String.ofList (ch :: nameOf rest)) = none) :
    (lookup (String.ofList (ch :: nameOf rest)) start).Clear t (afterName rest (n + 1)) := by
  rw [← nameOf_cons letter] at other ⊢
  rw [← afterName_cons letter]
  intro command missing found before less owner args place taken brace
  exact free (.argument other missing found less taken brace)

end Task

namespace Reads

variable {t : Tables} {d : Nat} {mode : Mode} {k : Task} {c : Cursor} {m : Memo}
  {o : Outcome k.Result} {v : List Nat}

/-- The reader of raw text comes to where a task ends that is done strictly, with no other group open
than before. -/
theorem walks (h : Reads t d mode k c m o v) (strict : mode = .strict) (ok : ∃ a, o.value = .ok a)
    (legible : Legible t (k.lead ++ c.rest)) (clear : k.Clear t c) :
    Walks 0 (k.lead ++ c.rest) (k.trail ++ o.cursor.rest) := by
  induction h with
  | unclosed | halted | unmatched | secondScript | argumentEnd | argumentMissing | unexpected
  | nameless | unknownSign | noRoom | textArgument | unknown | predefinedTooDeep | argsHalted
  | tooDeep =>
    obtain ⟨a, ok⟩ := ok
    cases ok
  | passed => cases strict
  | ended hs done =>
    obtain rfl | lenient := done
    · exact walks_of_skip legible.uncommented hs
    · cases strict.symm.trans lenient
  | @closed d mode ch opened items c m rest n hs =>
    -- Only a sequence that ends at a brace was started for a group; a bracket is a character.
    have skipped := walks_of_skip legible.uncommented hs
    have opening : ch ≠ '{' := fun opening => clear.1 (congrArg some opening)
    have slash : ch ≠ '\\' := fun slash => clear.2 (congrArg some slash)
    by_cases closing : ch = '}'
    · subst closing
      exact skipped
    · have different : some ch ≠ some '}' := fun same => closing (Option.some.inj same)
      rw [Task.trail, if_neg different]
      exact skipped.before (.plain opening closing slash (.done rest))
  | item hs _ _ _ ih ih' =>
    have skipped := walks_of_skip legible.uncommented hs
    have here := skipped.before (ih strict ⟨_, rfl⟩ (legible.behind skipped) trivial)
    exact here.before (ih' strict ok (legible.behind here) clear)
  | @script d mode items ch start c m o v script hf _ ih =>
    have bare : ch ≠ '{' ∧ ch ≠ '}' ∧ ch ≠ '\\' := by
      obtain rfl | rfl := script <;> decide
    have sign := Walks.plain bare.1 bare.2.1 bare.2.2 (.done c.rest)
    exact sign.before (ih strict (Outcome.ok_of_map ok) (legible.behind sign) trivial)
  | another brace script _ ih =>
    exact ih strict (Outcome.ok_of_map ok) legible brace
  | argument hs present _ ih =>
    have skipped := walks_of_skip legible.uncommented hs
    have brace : _ ≠ '}' := fun brace => present (.inl brace)
    exact skipped.before (ih strict ok (legible.behind skipped) brace)
  | group _ ih =>
    have inside := ih strict (Outcome.ok_of_map ok) legible.inside ⟨by simp, by simp⟩
    exact .opening (inside.trans (.closing (.done _)))
  | command _ ih => exact ih strict ok legible trivial
  | tie => exact .plain (by decide) (by decide) (by decide) (.done _)
  | @character d mode ch start c m source o v plain found _ ih =>
    have sign := Walks.plain plain.1 clear plain.2.1 (.done c.rest)
    exact sign.before (ih strict ok (legible.behind sign) trivial)
  | symbolCharacter plain | itself plain => exact .plain plain.1 clear plain.2.1 (.done _)
  | @construct d mode start ch rest n m construct o v letter built _ ih =>
    have named := walks_command letter rest n
    have free := legible.free (ch :: rest) (List.suffix_refl _)
    exact named.before (ih strict (Outcome.ok_of_map ok) (legible.behind named)
      (clear_params free letter n built))
  | @name d mode start ch rest n m o v letter other _ ih =>
    have named := walks_command letter rest n
    have free := legible.free (ch :: rest) (List.suffix_refl _)
    exact named.before (ih strict ok (legible.behind named)
      (Task.clear_lookup free letter n start other))
  | sign => exact .escaped _ (.done _)
  -- What stands for a name is a source of its own: of this one only the arguments are taken.
  | symbol => exact .done _
  | textCommand other found _ read _ ih =>
    have args := walks_textArgs legible.uncommented
      (fun before less args place taken => clear _ other found before less _ args place taken)
      (strict ▸ read)
    exact args.before (ih strict ok (legible.behind args) trivial)
  | kept | predefined => exact .done _
  | atomParam _ ih => exact ih strict ok legible trivial
  | optional hs _ ih =>
    have skipped := walks_of_skip legible.uncommented hs
    have bracket := skipped.before (.plain (by decide) (by decide) (by decide) (.done _))
    exact bracket.before
      (ih strict (Outcome.ok_of_map ok) (legible.behind bracket) ⟨by simp, by simp⟩)
  | absent => exact walks_skip legible.uncommented
  | @plain d mode start p c m =>
    subst strict
    obtain ⟨x, ok⟩ := ok
    exact walks_read legible.uncommented clear (Prod.ext (mapError_ok.mp ok) rfl)
  | nil => exact .done _
  | cons _ _ first later =>
    have here := first strict ⟨_, rfl⟩ legible (clear.1 _ rfl)
    have behind := later strict (Outcome.ok_of_map ok) (legible.behind here) (clear.tail _)
    exact here.before behind
  | nested => exact .done _

/-- A task that is done strictly closes the groups that were open for it, and every other group that
it opens. -/
theorem closes (h : Reads t d mode k c m o v) (strict : mode = .strict) (ok : ∃ a, o.value = .ok a)
    (orderly : Orderly t (k.lead ++ c.rest)) (clear : k.Clear t c) :
    ∃ text, k.lead ++ c.rest = text ++ o.cursor.rest ∧ openAfter k.trail.length text = some 0 := by
  obtain ⟨text, front, inside⟩ :=
    (h.walks strict ok orderly.legible clear).openAfter orderly.unescaped
  have around := openAfter_add inside k.trail.length
  rw [Nat.zero_add] at around
  refine ⟨text ++ k.trail, by rw [front, List.append_assoc], ?_⟩
  rw [openAfter_append around, k.openAfter_trail]

/-- A sequence without a closing character is read to the end. -/
theorem rest_eq_nil (h : Reads t d mode k c m o v) (ok : ∃ a, o.value = .ok a)
    (whole : ∃ opened items, k = .sequence none opened items) : o.cursor.rest = [] := by
  induction h with
  | ended => rfl
  | item _ _ _ _ _ ih | passed _ _ _ _ _ ih =>
    obtain ⟨opened, items, same⟩ := whole
    cases same
    exact ih ok ⟨_, _, rfl⟩
  | halted =>
    obtain ⟨a, ok⟩ := ok
    cases ok
  | _ =>
    obtain ⟨opened, items, same⟩ := whole
    cases same

end Reads

end Source

namespace Registry

open Source

/-- The braces of a source that is read strictly are balanced, if it has no comments, no backslash
before a brace or a backslash, and no command that takes a brace by itself. -/
theorem balanced_of_readAt (r : Registry) (depth : Nat) (source : String)
    (orderly : Orderly r.toTables source.toList) {items : List (Atom Float32)}
    (read : (r.readAt depth .strict source).result = .ok items) : Balanced source.toList := by
  obtain ⟨o, v, reads⟩ := ends r.toTables depth .strict .whole (.start source.toList)
    { cache := r.cache }
  rw [readAt_of_reads reads] at read
  have value : o.value = .ok items := mapError_ok.mp read
  obtain ⟨text, front, inside⟩ := reads.closes rfl ⟨items, value⟩ orderly (by simp [Task.Clear])
  have all : text = source.toList := by
    have rest := reads.rest_eq_nil ⟨items, value⟩ ⟨0, [], rfl⟩
    rw [rest, List.append_nil] at front
    exact front.symm
  rw [← all]
  exact balanced_of_openAfter inside

theorem balanced_of_readAt_command :
    Balanced "\x7b\\m\x7ba\x7d\x7d".toList := by
  have orderly : Orderly (Registry.empty.addCommand "m" 1 "#1").toTables
      "\x7b\\m\x7ba\x7d\x7d".toList := by
    refine ⟨by decide, fun rest behind takes => ?_⟩
    obtain rfl : rest = "m\x7ba\x7d\x7d".toList := by
      simpa [List.suffix_cons_iff] using behind
    cases takes with
    | delimiter name => exact absurd name (by decide)
    | text name => exact absurd name (by decide)
    | @argument command before owner n args place _ _ found less taken brace =>
      obtain rfl : command = ⟨1, "#1"⟩ := Option.some.inj (found.symm.trans (by decide))
      obtain rfl : before = 0 := Nat.lt_one_iff.mp less
      cases taken
      have first : (afterName "m\x7ba\x7d\x7d".toList n).rest.find? (!Text.isBlank ·) = some '{' :=
        rfl
      cases first.symm.trans brace
  have read : ((Registry.empty.addCommand "m" 1 "#1").readAt 0 .strict
      "\x7b\\m\x7ba\x7d\x7d").result = .ok [.char 'a'] := by
    cbv
  exact balanced_of_readAt _ 0 _ orderly read

/-- A delimiter and a text may be a brace, which then stands by itself. -/
theorem not_balanced_readAt :
    (Unescaped "\\middle\x7b".toList ∧ ¬Balanced "\\middle\x7b".toList ∧
      (Registry.empty.readAt 0 .strict "\\middle\x7b").result = .ok [.middle '\x7b']) ∧
    Unescaped "\\text\x7d".toList ∧ ¬Balanced "\\text\x7d".toList ∧
      (Registry.empty.readAt 0 .strict "\\text\x7d").result =
        .ok [.text "\x7d" .standard] := by
  have delimiter : (Registry.empty.readAt 0 .strict "\\middle\x7b").result =
      .ok [.middle '\x7b'] := by
    cbv
  have text : (Registry.empty.readAt 0 .strict "\\text\x7d").result =
      .ok [.text "\x7d" .standard] := by
    cbv
  refine ⟨⟨by decide, fun balanced => ?_, delimiter⟩, by decide, fun balanced => ?_, text⟩
  · exact absurd balanced.total (by decide)
  · exact absurd balanced.total (by decide)

end Registry

end FormulaInk
