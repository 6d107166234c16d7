import Mathlib
import FormulaInk.Proofs.Reading.Ending

/-! Where a reading stands and where it fails. Every task goes on in the source in which it starts, and
an error of a strict reading stands before the end of that source, however deeply the fault is
nested. -/

namespace FormulaInk

namespace Source

namespace Cursor

theorem Leads.refl (c : Cursor) : c.Leads c := ⟨List.suffix_refl _, rfl⟩

theorem leads_cons (ch : Char) (rest : List Char) (n : Nat) : Leads ⟨ch :: rest, n⟩ ⟨rest, n + 1⟩ :=
  leads_drop (.refl _) 1 (by simp)

theorem leads_of_end {c : Cursor} {n : Nat} (h : c.skip = ⟨[], n⟩) : c.Leads ⟨[], n⟩ :=
  h ▸ c.leads_skip

/-- The place behind the last character of the source. -/
def stop (c : Cursor) : Nat := c.offset + c.rest.length

theorem Leads.stop_eq {c c' : Cursor} (h : c.Leads c') : c'.stop = c.stop := h.offset

theorem stop_of_skip {c : Cursor} {ch : Char} {rest : List Char} {n : Nat}
    (h : c.skip = ⟨ch :: rest, n⟩) : stop ⟨rest, n + 1⟩ = c.stop ∧ n < c.stop := by
  have same := (leads_of_skip h).stop_eq
  refine ⟨same, ?_⟩
  rw [← same]
  simp only [stop]
  omega

end Cursor

section Readers

variable {c : Cursor}

theorem leads_afterName {rest : List Char} {n : Nat} (h : c.Leads ⟨rest, n⟩) :
    c.Leads (afterName rest n) :=
  Cursor.leads_drop h _ (length_nameOf_le rest)

theorem leads_bracedText {rest text after : List Char} {n : Nat} (h : c.Leads ⟨rest, n + 1⟩)
    (hb : bracedText 0 rest = (text, some after)) : c.Leads ⟨after, n + text.length + 2⟩ := by
  have inside : after <:+ rest := bracedText_suffix (by rw [hb])
  have length := length_bracedText_add (congrArg Prod.snd hb)
  rw [hb] at length
  refine h.trans ⟨inside, ?_⟩
  simp only at length ⊢
  omega

theorem leads_all {rest : List Char} {n : Nat} (h : c.Leads ⟨rest, n⟩) :
    c.Leads ⟨[], n + rest.length⟩ := by
  have dropped := Cursor.leads_drop h rest.length (Nat.le_refl _)
  rwa [List.drop_length] at dropped

theorem leads_rawGroup (mode : Mode) (owner : Nat) (c : Cursor) :
    c.Leads (rawGroup mode owner c).2 := by
  rcases hs : c.skip with ⟨_ | ⟨ch, rest⟩, n⟩
  · rw [rawGroup_of_end hs]
    exact Cursor.leads_of_end hs
  · have behind := Cursor.leads_of_skip hs
    by_cases brace : ch = '{'
    · subst brace
      rcases hb : bracedText 0 rest with ⟨text, _ | after⟩
      · rw [rawGroup_of_open hs hb]
        exact leads_all behind
      · rw [rawGroup_of_braces hs hb]
        exact leads_bracedText behind hb
    · by_cases slash : ch = '\\'
      · subst slash
        by_cases named : nameOf rest = []
        · rw [rawGroup_of_sign hs named]
          cases rest with
          | nil => exact behind
          | cons ch rest => exact Cursor.leads_drop behind 1 (by simp)
        · rw [rawGroup_of_name hs named]
          exact leads_afterName behind
      · rw [rawGroup_of_character hs brace slash]
        exact behind

theorem leads_delimiter (t : Tables) (owner : Nat) (c : Cursor) :
    c.Leads (delimiter t owner c).2 := by
  rcases hs : c.skip with ⟨_ | ⟨ch, rest⟩, n⟩
  · rw [delimiter_of_end hs]
    exact Cursor.leads_of_end hs
  · have behind := Cursor.leads_of_skip hs
    by_cases slash : ch = '\\'
    · subst slash
      by_cases named : nameOf rest = []
      · cases rest with
        | nil =>
          rw [delimiter_of_backslash hs]
          exact behind
        | cons ch rest =>
          rw [delimiter_of_sign hs named]
          exact Cursor.leads_drop behind 1 (by simp)
      · rw [delimiter_of_name hs named]
        exact leads_afterName behind
    · rw [delimiter_of_character hs slash]
      exact behind

theorem leads_textUntil (close : Char) (owner : Nat) (c : Cursor) :
    c.Leads (textUntil close owner c).2 := by
  have whole := congrArg List.length (List.takeWhile_append_dropWhile (p := (· != close)) (l := c.rest))
  rw [List.length_append] at whole
  cases hd : c.rest.dropWhile (· != close) with
  | nil =>
    rw [hd] at whole
    simp only [textUntil, hd]
    refine ⟨List.nil_suffix, ?_⟩
    simp only [List.length_nil] at whole ⊢
    omega
  | cons ch rest =>
    have inside : ch :: rest <:+ c.rest := hd ▸ List.dropWhile_suffix _
    rw [hd] at whole
    simp only [textUntil, hd]
    refine ⟨(List.suffix_cons ch rest).trans inside, ?_⟩
    simp only [List.length_cons] at whole ⊢
    omega

theorem leads_readOptional (owner : Nat) (c : Cursor) :
    c.Leads (Plain.readOptional owner c).2 := by
  by_cases opening : c.skip.rest.head? = some '['
  · obtain ⟨rest, more⟩ := List.head?_eq_some_iff.mp opening
    have hs : c.skip = ⟨'[' :: rest, c.skip.offset⟩ := by rw [← more]
    rw [readOptional_of_open hs]
    exact (Cursor.leads_of_skip hs).trans (leads_textUntil ']' owner _)
  · rw [readOptional_of_absent opening]
    exact c.leads_skip

theorem leads_read (t : Tables) (mode : Mode) (owner : Nat) (p : Plain) (c : Cursor) :
    c.Leads (p.read t mode owner c).2 := by
  have group {α : Type} (interpret : List Char → Except ParseError α) :
      c.Leads (Plain.readGroup mode owner interpret c).2 := by
    rw [readGroup_eq]
    exact leads_rawGroup mode owner c
  cases p with
  | optionalNumber => exact leads_readOptional owner c
  | delimiter => exact leads_delimiter t owner c
  | text | number | color | length => exact group _

theorem leads_textArgs (mode : Mode) (owner count : Nat) (c : Cursor) :
    c.Leads (textArgs mode owner count c).2 := by
  induction count generalizing c with
  | zero => exact .refl c
  | succ count ih =>
    have first := leads_rawGroup mode owner c
    rw [textArgs]
    rcases group : rawGroup mode owner c with ⟨_ | raw, after⟩
    · rw [group] at first
      exact first
    · rw [group] at first
      have all := first.trans (ih after)
      rcases later : textArgs mode owner count after with ⟨_ | args, last⟩ <;>
        simpa [later] using all

end Readers

/-- A fault, if there is one, stands before a place. -/
def FailsBefore {α : Type} (stop : Nat) (x : Except ParseError α) : Prop :=
  ∀ e, x = .error e → e.offset < stop

namespace FailsBefore

variable {α β : Type} {stop : Nat} {x : Except ParseError α}

theorem ok (a : α) : FailsBefore stop (.ok a : Except ParseError α) := by
  intro e h
  cases h

theorem error {n : Nat} {fault : Fault} (h : n < stop) :
    FailsBefore stop (.error ⟨n, fault⟩ : Except ParseError α) := by
  intro e he
  cases he
  exact h

theorem map (h : FailsBefore stop x) (f : α → β) : FailsBefore stop (x.map f) := by
  cases x with
  | error e => exact error (h e rfl)
  | ok a => exact ok (f a)

theorem bind {f : α → Except ParseError β} (h : FailsBefore stop x)
    (hf : ∀ a, FailsBefore stop (f a)) : FailsBefore stop (x.bind f) := by
  cases x with
  | error e => exact error (h e rfl)
  | ok a => exact hf a

end FailsBefore

/-- The same of a task, which may also panic. -/
def StopsBefore {α : Type} (stop : Nat) (x : Except (Halt ParseError) α) : Prop :=
  ∀ e, x = .error (.fault e) → e.offset < stop

namespace StopsBefore

variable {α β : Type} {stop : Nat} {x : Except (Halt ParseError) α}

theorem ok (a : α) : StopsBefore stop (.ok a : Except (Halt ParseError) α) := by
  intro e h
  cases h

theorem fault {n : Nat} {fault : Fault} (h : n < stop) :
    StopsBefore stop (.error (.fault ⟨n, fault⟩) : Except (Halt ParseError) α) := by
  intro e he
  cases he
  exact h

theorem panic (p : Panic) : StopsBefore stop (.error (.panic p) : Except (Halt ParseError) α) := by
  intro e h
  cases h

theorem map (h : StopsBefore stop x) (f : α → β) : StopsBefore stop (x.map f) := by
  rcases x with (e | p) | a
  · exact fault (h e rfl)
  · exact panic p
  · exact ok (f a)

theorem of_halt {halt : Halt ParseError}
    (h : StopsBefore stop (.error halt : Except (Halt ParseError) α)) :
    StopsBefore stop (.error halt : Except (Halt ParseError) β) := by
  cases halt with
  | fault e => exact fault (h e rfl)
  | panic p => exact panic p

theorem of_found {x : Except ParseError α} (h : FailsBefore stop x) :
    StopsBefore stop (x.mapError .fault) := by
  cases x with
  | error e => exact fault (h e rfl)
  | ok a => exact ok a

/-- Faults of nested sources are reported where the nested source is used. -/
theorem within {n : Nat} (h : n < stop) (x : Except (Halt ParseError) α) (origin : Origin)
    (f : α → β) :
    StopsBefore stop ((x.mapError (Halt.map fun e => ⟨n, .within origin e.fault⟩)).map f) := by
  rcases x with (e | p) | a
  · exact fault h
  · exact panic p
  · exact ok (f a)

end StopsBefore

section Faults

variable {t : Tables} {mode : Mode} {owner : Nat} {c : Cursor}

theorem failsBefore_rawGroup (h : owner < c.stop) :
    FailsBefore c.stop (rawGroup mode owner c).1 := by
  rcases hs : c.skip with ⟨_ | ⟨ch, rest⟩, n⟩
  · rw [rawGroup_of_end hs]
    exact .error h
  · by_cases brace : ch = '{'
    · subst brace
      rcases hb : bracedText 0 rest with ⟨text, _ | after⟩
      · rw [rawGroup_of_open hs hb]
        cases mode with
        | strict => exact .error (Cursor.stop_of_skip hs).2
        | lenient => exact .ok text
      · rw [rawGroup_of_braces hs hb]
        exact .ok text
    · by_cases slash : ch = '\\'
      · subst slash
        by_cases named : nameOf rest = []
        · rw [rawGroup_of_sign hs named]
          exact .ok _
        · rw [rawGroup_of_name hs named]
          exact .ok _
      · rw [rawGroup_of_character hs brace slash]
        exact .ok _

theorem failsBefore_delimiter (h : owner < c.stop) :
    FailsBefore c.stop (delimiter t owner c).1 := by
  rcases hs : c.skip with ⟨_ | ⟨ch, rest⟩, n⟩
  · rw [delimiter_of_end hs]
    exact .error h
  · by_cases slash : ch = '\\'
    · subst slash
      by_cases named : nameOf rest = []
      · cases rest with
        | nil =>
          rw [delimiter_of_backslash hs]
          exact .error h
        | cons ch rest =>
          rw [delimiter_of_sign hs named]
          exact .ok ch
      · rw [delimiter_of_name hs named]
        cases t.symbols.get? (String.ofList (nameOf rest)) with
        | none => exact .error h
        | some symbol => exact .ok symbol.ch
    · rw [delimiter_of_character hs slash]
      exact .ok ch

theorem failsBefore_textUntil {stop : Nat} (h : owner < stop) (close : Char) (c : Cursor) :
    FailsBefore stop (textUntil close owner c).1 := by
  unfold textUntil
  split
  · exact .error h
  · exact .ok _

theorem failsBefore_numberOf {stop : Nat} (h : owner < stop) (text : List Char) :
    FailsBefore stop (numberOf owner text) := by
  unfold numberOf
  split
  · split
    · exact .ok _
    · exact .error h
  · exact .error h

theorem failsBefore_colorOf {stop : Nat} (h : owner < stop) (text : List Char) :
    FailsBefore stop (colorOf owner text) := by
  unfold colorOf
  split
  · exact .ok _
  · exact .error h

theorem failsBefore_lengthOf {stop : Nat} (h : owner < stop) (text : List Char) :
    FailsBefore stop (lengthOf owner text) := by
  unfold lengthOf
  split
  · exact .ok _
  · exact .error h

theorem failsBefore_readOptional (h : owner < c.stop) :
    FailsBefore c.stop (Plain.readOptional owner c).1 := by
  by_cases opening : c.skip.rest.head? = some '['
  · obtain ⟨rest, more⟩ := List.head?_eq_some_iff.mp opening
    have hs : c.skip = ⟨'[' :: rest, c.skip.offset⟩ := by rw [← more]
    rw [readOptional_of_open hs]
    exact (failsBefore_textUntil h ']' _).bind fun raw => (failsBefore_numberOf h raw).map some
  · rw [readOptional_of_absent opening]
    exact .ok none

theorem failsBefore_read (h : owner < c.stop) (p : Plain) :
    FailsBefore c.stop (p.read t mode owner c).1 := by
  have group {α : Type} {interpret : List Char → Except ParseError α}
      (hi : ∀ raw, FailsBefore c.stop (interpret raw)) :
      FailsBefore c.stop (Plain.readGroup mode owner interpret c).1 := by
    rw [readGroup_eq]
    exact (failsBefore_rawGroup h).bind hi
  cases p with
  | optionalNumber => exact failsBefore_readOptional h
  | delimiter => exact failsBefore_delimiter h
  | text => exact group fun raw => .ok _
  | number => exact group (failsBefore_numberOf h)
  | color => exact group (failsBefore_colorOf h)
  | length => exact group (failsBefore_lengthOf h)

theorem failsBefore_textArgs {stop count : Nat} (h : owner < stop) (same : c.stop = stop) :
    FailsBefore stop (textArgs mode owner count c).1 := by
  induction count generalizing c with
  | zero => exact .ok []
  | succ count ih =>
    subst same
    have here : FailsBefore c.stop (rawGroup mode owner c).1 := failsBefore_rawGroup h
    have place := leads_rawGroup mode owner c
    rw [textArgs]
    rcases group : rawGroup mode owner c with ⟨e | raw, after⟩
    · rw [group] at here
      exact .error (here e rfl)
    · rw [group] at place
      have behind := ih place.stop_eq
      rcases later : textArgs mode owner count after with ⟨e | args, last⟩
      · rw [later] at behind
        simpa [later] using FailsBefore.error (behind e rfl)
      · simpa [later] using FailsBefore.ok (raw :: args)

end Faults

namespace Reads

variable {t : Tables} {d : Nat} {mode : Mode} {k : Task} {c : Cursor} {m : Memo}
  {o : Outcome k.Result} {depths : List Nat}

/-- A task stops in the source in which it starts, and does not go back. -/
theorem leads (h : Reads t d mode k c m o depths) : c.Leads o.cursor := by
  induction h with
  | unclosed hs | ended hs | argumentEnd hs => exact Cursor.leads_of_end hs
  | closed hs => exact Cursor.leads_of_skip hs
  | item hs _ _ _ first later | passed hs _ _ _ first later =>
    exact (Cursor.leads_of_skip hs).trans (first.trans later)
  | halted hs _ _ _ ih | argument hs _ _ ih | optional hs _ ih =>
    exact (Cursor.leads_of_skip hs).trans ih
  | argumentMissing hs => exact hs ▸ Cursor.leads_skip _
  | script _ _ _ ih | another _ _ _ ih | group _ ih | command _ ih | character _ _ _ ih
  | atomParam _ ih | argsHalted _ ih => exact ih
  | nameless => exact .refl _
  | @construct _ _ _ ch rest n _ _ _ _ _ _ _ ih | @name _ _ _ ch rest n _ _ _ _ _ _ ih =>
    exact (leads_afterName (Cursor.leads_cons ch rest n)).trans ih
  | sign | unknownSign => exact Cursor.leads_cons ..
  | @textArgument d mode _ start c _ command _ _ _ _ _ read =>
    have args := leads_textArgs mode start command.args c
    rwa [read] at args
  | @textCommand d mode _ start c _ command _ _ _ _ _ _ _ read _ ih =>
    have args := leads_textArgs mode start command.args c
    rw [read] at args
    exact args.trans ih
  | absent => exact Cursor.leads_skip _
  | plain => exact leads_read ..
  | cons _ _ first later => exact first.trans later
  | unmatched | secondScript | unexpected | tie | symbolCharacter | itself | symbol | noRoom
  | unknown
  | predefinedTooDeep | kept | predefined | nil | tooDeep | nested => exact .refl _

end Reads

/-- The place that a task has to report. -/
def Task.owner : Task → Option Nat
  | sequence close opened _ => close.map fun _ => opened
  | step _ _ start | atom _ start | command start | lookup _ start | param start _ | args start _
  | expansion _ _ start => some start
  | argument owner => some owner

namespace Reads

variable {t : Tables} {d : Nat} {mode : Mode} {k : Task} {c : Cursor} {m : Memo}
  {o : Outcome k.Result} {depths : List Nat}

/-- What is wrong is reported at a place of the source that is read. The places inside a nested
source never leave it: its faults are reported where it is used. -/
theorem stopsBefore (h : Reads t d mode k c m o depths) (owner : ∀ n ∈ k.owner, n < c.stop) :
    StopsBefore c.stop o.value := by
  induction h with
  | unclosed => exact .fault (owner _ rfl)
  | noRoom => exact .panic _
  | ended | closed | tie | symbolCharacter | itself | sign | symbol | kept | absent | nil =>
    exact .ok _
  | @item d mode close opened items c m ch rest n found after m' o v v' hs _ first _ _ ih =>
    have place := Cursor.stop_of_skip hs
    have behind : after.stop = c.stop := first.leads.stop_eq.trans place.1
    rw [behind] at ih
    exact ih owner
  | @halted d mode close opened items c m ch rest n e after m' v hs _ _ _ ih =>
    have place := Cursor.stop_of_skip hs
    rw [place.1] at ih
    exact (ih fun _ start => by cases start; exact place.2).of_halt
  | @passed d close opened items c m ch rest n e after m' o v v' hs _ first _ _ ih =>
    have place := Cursor.stop_of_skip hs
    have behind : after.stop = c.stop := first.leads.stop_eq.trans place.1
    rw [behind] at ih
    exact ih owner
  | unmatched | secondScript | argumentEnd | argumentMissing | unexpected | nameless | unknownSign
  | unknown | predefinedTooDeep | tooDeep => exact .fault (owner _ rfl)
  | script _ _ _ ih | another _ _ _ ih | group _ ih => exact (ih owner).map _
  | argument hs _ _ ih =>
    have place := Cursor.stop_of_skip hs
    rw [place.1] at ih
    exact ih fun _ start => by cases start; exact place.2
  | command _ ih | character _ _ _ ih | atomParam _ ih => exact ih owner
  | argsHalted _ ih => exact (ih owner).of_halt
  | @construct _ _ _ ch rest n _ _ _ _ _ _ _ ih =>
    rw [(leads_afterName (Cursor.leads_cons ch rest n)).stop_eq] at ih
    exact (ih owner).map _
  | @name _ _ _ ch rest n _ _ _ _ _ _ ih =>
    rw [(leads_afterName (Cursor.leads_cons ch rest n)).stop_eq] at ih
    exact ih owner
  | @textArgument d mode name start c _ command _ _ _ _ _ read =>
    have args : FailsBefore c.stop (textArgs mode start command.args c).1 :=
      failsBefore_textArgs (owner _ rfl) rfl
    rw [read] at args
    exact .fault (args _ rfl)
  | @textCommand d mode _ start c _ command _ after _ _ _ _ _ read _ ih =>
    have args := leads_textArgs mode start command.args c
    rw [read] at args
    rw [args.stop_eq] at ih
    exact ih owner
  | predefined | nested => exact StopsBefore.within (owner _ rfl) _ _ _
  | @optional _ _ _ _ _ _ n _ _ hs _ ih =>
    have place := Cursor.stop_of_skip hs
    rw [place.1] at ih
    exact (ih fun _ start => by cases start; exact place.2).map _
  | plain => exact .of_found (failsBefore_read (owner _ rfl) _)
  | @cons d mode start p ps c m a after m' o v v' first _ _ ih =>
    rw [first.leads.stop_eq] at ih
    exact (ih owner).map _

end Reads

end Source

namespace Registry

open Source

/-- A strict reading fails with a fault of the source, at one of its characters. This holds for
sources at every depth and for the predefined formulas that are fetched by name. -/
theorem located_of_failure (r : Registry) :
    (∀ depth source e, (r.readAt depth .strict source).result = .error (.fault e) →
      ∃ place fault, e = .parse ⟨place, fault⟩ ∧ place < source.length) ∧
    ∀ name source, r.predefined.get? name = some source →
      ∀ e, (r.get name).result = .error (.fault e) →
        ∃ place fault, e = .parse ⟨place, fault⟩ ∧ place < source.length := by
  have located (depth : Nat) (source : String) {o : Outcome (List (Atom Float32))} {v : List Nat}
      (reads : Reads r.toTables depth .strict .whole (.start source.toList) { cache := r.cache } o v)
      {e : ParseError} (failed : o.value = .error (.fault e)) : e.offset < source.length := by
    have before := reads.stopsBefore (by simp [Task.owner]) e failed
    simpa [Cursor.stop, Cursor.start, String.length_toList] using before
  constructor
  · intro depth source e failed
    obtain ⟨o, v, reads⟩ := ends r.toTables depth .strict .whole (.start source.toList)
      { cache := r.cache }
    rw [readAt_of_reads reads] at failed
    rcases value : o.value with (fault | p) | items
    · rw [value] at failed
      cases failed
      exact ⟨fault.offset, fault.fault, rfl, located depth source reads value⟩
    · rw [value] at failed
      cases failed
    · rw [value] at failed
      cases failed
  · intro name source known e failed
    cases hit : r.cache.get? name with
    | some f =>
      rw [get_of_hit hit] at failed
      cases failed
    | none =>
      obtain ⟨o, v, reads⟩ := ends r.toTables 0 .strict .whole (.start source.toList)
        { cache := r.cache }
      rw [get_of_reads hit known reads] at failed
      rcases value : o.value with (fault | p) | items
      · rw [value] at failed
        cases failed
        exact ⟨fault.offset, fault.fault, rfl, located 0 source reads value⟩
      · rw [value] at failed
        cases failed
      · rw [value] at failed
        cases failed

theorem located_of_failure_nested :
    (((Registry.empty.addCommand "m" 1 "\\frac\x7b#1\x7d").readAt 0 .strict "a\\m\x7bx\x7d").result =
        .error (.fault (.parse ⟨1, .within (.command "m") .missingArgument⟩)) ∧
      1 < "a\\m\x7bx\x7d".length) ∧
    (((Registry.empty.addCommand "m" 1 "\\frac\x7b#1\x7d").registerPredefined "p" "b+\\m\x7bx\x7d").get
        "p").result = .error (.fault (.parse ⟨2, .within (.command "m") .missingArgument⟩)) ∧
      2 < "b+\\m\x7bx\x7d".length := by
  have read : ((Registry.empty.addCommand "m" 1 "\\frac\x7b#1\x7d").readAt 0 .strict
      "a\\m\x7bx\x7d").result =
        .error (.fault (.parse ⟨1, .within (.command "m") .missingArgument⟩)) := by
    cbv
  have fetched : (((Registry.empty.addCommand "m" 1 "\\frac\x7b#1\x7d").registerPredefined "p"
      "b+\\m\x7bx\x7d").get "p").result =
        .error (.fault (.parse ⟨2, .within (.command "m") .missingArgument⟩)) := by
    cbv
  constructor
  · obtain ⟨place, fault, same, before⟩ := (located_of_failure _).1 0 _ _ read
    cases same
    exact ⟨read, before⟩
  · obtain ⟨place, fault, same, before⟩ :=
      (located_of_failure _).2 "p" "b+\\m\x7bx\x7d" (by decide) _ fetched
    cases same
    exact ⟨fetched, before⟩

end Registry

end FormulaInk
