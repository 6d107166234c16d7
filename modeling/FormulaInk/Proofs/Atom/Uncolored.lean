import FormulaInk.Proofs.Atom.Nodes

/-! Atoms with their color nodes taken out. What an atom is to its neighbours in a row is what the
atom without color nodes is to them, as long as no item of a row hides under a color what the row
would not take for solid. -/

namespace FormulaInk

namespace Atom

variable {α : Type}

mutual

/-- The atom with each color node, at any depth, replaced by its base. -/
def uncolored : Atom α → Atom α
  | color _ _ base => uncolored base
  | row items => row (uncoloredAll items)
  | typed left right base => typed left right (uncolored base)
  | fraction num den => fraction (uncolored num) (uncolored den)
  | scripts base sup sub => scripts (uncolored base) (uncoloredSome sup) (uncoloredSome sub)
  | sqrt index base => sqrt (uncoloredSome index) (uncolored base)
  | styled font base => styled font (uncolored base)
  | vCentered base => vCentered (uncolored base)
  | framed base => framed (uncolored base)
  | oval base => oval (uncolored base)
  | circled base => circled (uncolored base)
  | rotated degrees base => rotated degrees (uncolored base)
  | scaled x y base => scaled x y (uncolored base)
  | lines rows align => lines (uncoloredAll rows) align
  | empty => empty
  | char ch => char ch
  | symbol name ch kind => symbol name ch kind
  | space kind => space kind
  | strut width height depth => strut width height depth
  | text run font => text run font
  | breakMark => breakMark
  | middle delimiter => middle delimiter

def uncoloredAll : List (Atom α) → List (Atom α)
  | [] => []
  | a :: rest => uncolored a :: uncoloredAll rest

def uncoloredSome : Option (Atom α) → Option (Atom α)
  | none => none
  | some a => some (uncolored a)

end

@[simp] theorem uncoloredAll_eq_map (items : List (Atom α)) :
    uncoloredAll items = items.map uncolored := by
  induction items with
  | nil => rfl
  | cons a rest ih => simp [uncoloredAll, ih]

@[simp] theorem uncoloredSome_eq_map (part : Option (Atom α)) :
    uncoloredSome part = part.map uncolored := by
  cases part <;> rfl

/-- A row takes the atom for an item with classes of its own that does not grow. -/
def IsSolid (a : Atom α) : Prop := a.isNeutral = false ∧ a.grows = false

/-- Every color node among the items of a row stands on something solid. The row does not look under
the color when it asks whether an item is neutral or grows, though it does for the classes. -/
def ColorsSolid (a : Atom α) : Prop :=
  ∀ items, row items ∈ a.nodes → ∀ b ∈ items, b.isColor → b.uncolored.IsSolid

theorem ColorsSolid.part {a b : Atom α} (solid : a.ColorsSolid) (h : b ∈ a.parts) :
    b.ColorsSolid := by
  intro items within
  apply solid items
  rw [nodes_eq]
  exact List.mem_cons_of_mem _ (List.mem_flatMap.mpr ⟨b, h, within⟩)

theorem ColorsSolid.item {items : List (Atom α)} (solid : (row items).ColorsSolid) {b : Atom α}
    (h : b ∈ items) : b.isColor → b.uncolored.IsSolid := by
  apply solid items _ b h
  rw [nodes_eq]
  exact List.mem_cons_self

theorem isNeutral_uncolored {b : Atom α} (solid : b.isColor → b.uncolored.IsSolid) :
    b.uncolored.isNeutral = b.isNeutral := by
  cases b with
  | color => exact (solid rfl).1
  | _ => rfl

theorem grows_uncolored {b : Atom α} (solid : b.isColor → b.uncolored.IsSolid) :
    b.uncolored.grows = b.grows := by
  cases b with
  | color => exact (solid rfl).2
  | _ => rfl

/-- An atom shows its neighbours the classes that it shows them without color. -/
theorem ColorsSolid.classes {a : Atom α} (solid : a.ColorsSolid) :
    a.uncolored.leftClass = a.leftClass ∧ a.uncolored.rightClass = a.rightClass := by
  induction a using Atom.induction with
  | step a ih =>
    have part : ∀ b ∈ a.parts,
        b.uncolored.leftClass = b.leftClass ∧ b.uncolored.rightClass = b.rightClass :=
      fun b hb => ih b hb (solid.part hb)
    cases a with
    | row items =>
      have neutral : ∀ b ∈ items, b.uncolored.isNeutral = b.isNeutral :=
        fun b hb => isNeutral_uncolored (solid.item hb)
      have first := firstClass_map neutral fun b hb => (part b hb).1
      have last := lastClass?_map neutral fun b hb => (part b hb).2
      simp [uncolored, leftClass, rightClass, first, last]
    | color _ _ base | styled _ base | scaled _ _ base => exact part base (List.mem_singleton_self _)
    | scripts base _ _ => exact part base List.mem_cons_self
    | _ => exact ⟨rfl, rfl⟩

end Atom

end FormulaInk
