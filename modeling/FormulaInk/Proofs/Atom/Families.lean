import FormulaInk.Formula
import FormulaInk.Proofs.Atom.Parts

/-! Atoms with other font families for their texts. What a formula keeps beside its tree, and what
reading asks of an atom, is the same for all families. -/

namespace FormulaInk

namespace Atom

variable {α : Type}

section Refit

variable (fit : String → Families → Families)

mutual

/-- The atom with the families of each text replaced by what `fit` gives for the text. -/
def refit : Atom α → Atom α
  | text run font => text run (fit run font)
  | row items => row (refitAll items)
  | typed left right base => typed left right (refit base)
  | color background foreground base => color background foreground (refit base)
  | fraction num den => fraction (refit num) (refit den)
  | scripts base sup sub => scripts (refit base) (refitSome sup) (refitSome sub)
  | sqrt index base => sqrt (refitSome index) (refit base)
  | styled font base => styled font (refit base)
  | vCentered base => vCentered (refit base)
  | framed base => framed (refit base)
  | oval base => oval (refit base)
  | circled base => circled (refit base)
  | rotated degrees base => rotated degrees (refit base)
  | scaled x y base => scaled x y (refit base)
  | lines rows align => lines (refitAll rows) align
  | empty => empty
  | char ch => char ch
  | symbol name ch kind => symbol name ch kind
  | space kind => space kind
  | strut width height depth => strut width height depth
  | breakMark => breakMark
  | middle delimiter => middle delimiter

/-- Every item refitted. -/
def refitAll : List (Atom α) → List (Atom α)
  | [] => []
  | a :: rest => refit a :: refitAll rest

/-- A part that may be absent, refitted. -/
def refitSome : Option (Atom α) → Option (Atom α)
  | none => none
  | some a => some (refit a)

end

end Refit

mutual

/-- The texts of an atom. -/
def runs : Atom α → List String
  | text run _ => [run]
  | row items | lines items _ => allRuns items
  | typed _ _ base | color _ _ base | styled _ base | vCentered base | framed base | oval base
  | circled base | rotated _ base | scaled _ _ base => base.runs
  | fraction num den => num.runs ++ den.runs
  | scripts base sup sub => base.runs ++ someRuns sup ++ someRuns sub
  | sqrt index base => someRuns index ++ base.runs
  | empty | char _ | symbol .. | space _ | strut .. | breakMark | middle _ => []

/-- The texts of all items. -/
def allRuns : List (Atom α) → List String
  | [] => []
  | a :: rest => a.runs ++ allRuns rest

/-- The texts of a part that may be absent. -/
def someRuns : Option (Atom α) → List String
  | none => []
  | some a => a.runs

end

section Lists

variable (fit : String → Families → Families)

@[simp] theorem refitAll_eq_map (items : List (Atom α)) :
    refitAll fit items = items.map (refit fit) := by
  induction items with
  | nil => rfl
  | cons a rest ih => simp [refitAll, ih]

@[simp] theorem refitSome_eq_map (part : Option (Atom α)) :
    refitSome fit part = part.map (refit fit) := by
  cases part <;> rfl

@[simp] theorem allRuns_eq_flatMap (items : List (Atom α)) : allRuns items = items.flatMap runs := by
  induction items with
  | nil => rfl
  | cons a rest ih => simp [allRuns, ih]

@[simp] theorem someRuns_eq_flatMap (part : Option (Atom α)) :
    someRuns part = part.toList.flatMap runs := by
  cases part <;> simp [someRuns]

theorem allMiddles_eq_flatMap (items : List (Atom α)) :
    allMiddles items = items.flatMap middles := by
  induction items with
  | nil => rfl
  | cons a rest ih => simp [allMiddles, ih]

end Lists

section Laws

variable {fit fit' : String → Families → Families}

attribute [local simp] refit runs middles someMiddles hasColor someColor parts

/-- Two refittings that agree on the texts of an atom give the same atom. -/
theorem refit_congr {a : Atom α} (h : ∀ run ∈ a.runs, fit run = fit' run) :
    a.refit fit = a.refit fit' := by
  induction a using Atom.induction with
  | step a ih =>
    cases a with
    | row items | lines items align =>
      have same : items.map (refit fit) = items.map (refit fit') :=
        List.map_congr_left fun b hb => ih b hb fun run hr =>
          h run (by simpa using ⟨b, hb, hr⟩)
      simp [same]
    | scripts base sup sub =>
      cases sup <;> cases sub <;> simp_all
    | sqrt index base => cases index <;> simp_all
    | _ => simp_all

/-- Atoms that keep their families stay as they are. -/
theorem refit_keep (a : Atom α) : a.refit (fun _ font => font) = a := by
  induction a using Atom.induction with
  | step a ih =>
    cases a with
    | row items | lines items align =>
      have same : items.map (refit fun _ font => font) = items :=
        (List.map_congr_left ih).trans (List.map_id items)
      simp [same]
    | scripts base sup sub => cases sup <;> cases sub <;> simp_all
    | sqrt index base => cases index <;> simp_all
    | _ => simp_all

/-- Refitting leaves the texts. -/
@[simp] theorem runs_refit (a : Atom α) : (a.refit fit).runs = a.runs := by
  induction a using Atom.induction with
  | step a ih =>
    cases a with
    | row items | lines items align =>
      have same : items.map (fun a => (a.refit fit).runs) = items.map runs :=
        List.map_congr_left ih
      simp [List.flatMap_def, Function.comp_def, same]
    | scripts base sup sub => cases sup <;> cases sub <;> simp_all
    | sqrt index base => cases index <;> simp_all
    | _ => simp_all

@[simp] theorem middles_refit (a : Atom α) : (a.refit fit).middles = a.middles := by
  induction a using Atom.induction with
  | step a ih =>
    cases a with
    | row items | lines items align =>
      have same : items.map (fun a => (a.refit fit).middles) = items.map middles :=
        List.map_congr_left ih
      simp [allMiddles_eq_flatMap, List.flatMap_def, Function.comp_def, same]
    | scripts base sup sub =>
      cases sup <;> cases sub <;> simp_all
    | sqrt index base => cases index <;> simp_all
    | _ => simp_all

@[simp] theorem hasColor_refit (a : Atom α) : (a.refit fit).hasColor = a.hasColor := by
  induction a using Atom.induction with
  | step a ih =>
    cases a with
    | row items | lines items align =>
      have same : (items.map fun a => (a.refit fit).hasColor).any id = (items.map hasColor).any id :=
        congrArg (List.any · id) (List.map_congr_left ih)
      simpa [anyColor_eq_any, List.any_map, Function.comp_def] using same
    | scripts base sup sub =>
      cases sup <;> cases sub <;> simp_all
    | sqrt index base => cases index <;> simp_all
    | _ => simp_all

@[simp] theorem isNeutral_refit (a : Atom α) : (a.refit fit).isNeutral = a.isNeutral := by
  cases a <;> rfl

@[simp] theorem rightClass_refit (a : Atom α) : (a.refit fit).rightClass = a.rightClass := by
  induction a using Atom.induction with
  | step a ih =>
    cases a with
    | row items =>
      have last : lastClass? (items.map (refit fit)) = lastClass? items :=
        lastClass?_map (fun b _ => isNeutral_refit b) ih
      simp [rightClass, last]
    | _ => simp_all [rightClass]

/-- A group refits item by item. -/
theorem group_map_refit (items : List (Atom α)) :
    group (items.map (refit fit)) = (group items).refit fit := by
  match items with
  | [] | [_] => rfl
  | _ :: _ :: _ => simp [group]

end Laws

end Atom

namespace Formula

/-- The formula with the families of its texts replaced. -/
def refit (fit : String → Families → Families) (f : Formula) : Formula :=
  { f with root := f.root.map (Atom.refit fit) }

variable {fit fit' : String → Families → Families}

theorem refit_congr {f : Formula} (h : ∀ root ∈ f.root, ∀ run ∈ root.runs, fit run = fit' run) :
    f.refit fit = f.refit fit' := by
  rcases f with ⟨_ | root, _⟩
  · rfl
  · rw [refit, refit, Option.map_some, Option.map_some, Atom.refit_congr (h root rfl)]

theorem items_refit (a : Atom Float32) : items (a.refit fit) = (items a).map (Atom.refit fit) := by
  cases a <;> simp [items, Atom.refit]

@[simp] theorem breaksAfter_refit (a : Atom Float32) :
    breaksAfter (a.refit fit) = breaksAfter a := by
  have same : (a.refit fit).rightClass = a.rightClass := Atom.rightClass_refit a
  cases a <;> first | rfl | exact congrArg AtomClass.allowsBreakAfter same

theorem extend_refit (root : Option (Atom Float32)) (a : Atom Float32) :
    extend (root.map (Atom.refit fit)) (a.refit fit) = (extend root a).refit fit := by
  cases root with
  | none => rfl
  | some root =>
    by_cases h : breaksAfter a <;> simp [extend, h, items_refit, Atom.refit]

/-- Refitting goes through the addition of an atom. -/
theorem add_refit (f : Formula) (a : Atom Float32) :
    (f.refit fit).add (a.refit fit) = (f.add a).refit fit := by
  simp [add, refit, extend_refit]

/-- Refitting goes through the addition of atoms. -/
theorem addAll_refit (f : Formula) (items : List (Atom Float32)) :
    (f.refit fit).addAll (items.map (Atom.refit fit)) = (f.addAll items).refit fit := by
  induction items generalizing f with
  | nil => rfl
  | cons a rest ih =>
    show ((f.refit fit).add (a.refit fit)).addAll (rest.map (Atom.refit fit)) = _
    rw [add_refit, ih]
    rfl

end Formula

end FormulaInk
