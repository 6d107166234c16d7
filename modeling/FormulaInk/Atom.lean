import FormulaInk.AtomClass
import FormulaInk.Color
import FormulaInk.FontType
import FormulaInk.Length

/-!
The atom tree of a formula, what its nodes are to their neighbours, and what can be read off a tree
without laying it out: its visible leaves, its middle delimiters, and whether it holds color.
-/

namespace FormulaInk

/-- One node of a formula, with numbers of `α`. -/
inductive Atom (α : Type) where
  /-- Nothing: an empty group, or what lenient reading leaves in place of a faulty part. -/
  | empty
  /-- A letter or digit in the math font. -/
  | char (ch : Char)
  /-- A named symbol with a spacing class of its own. -/
  | symbol (name : String) (ch : Char) (kind : AtomClass)
  | row (items : List (Atom α))
  /-- Shows its neighbours the given classes in place of its own. -/
  | typed (left right : AtomClass) (base : Atom α)
  | color (background foreground : Option Color) (base : Atom α)
  | fraction (num den : Atom α)
  | scripts (base : Atom α) (sup sub : Option (Atom α))
  | sqrt (index : Option (Atom α)) (base : Atom α)
  | space (kind : Skip)
  | strut (width height depth : Length α)
  /-- Text in a font family of its own. -/
  | text (text : String) (font : Families)
  /-- Adds bits to the font type of everything below it. -/
  | styled (font : FontType) (base : Atom α)
  /-- A place where the line may be broken. -/
  | breakMark
  /-- A delimiter that grows to the height of its row. -/
  | middle (delimiter : Char)
  /-- Content centered on the math axis. -/
  | vCentered (base : Atom α)
  | framed (base : Atom α)
  | oval (base : Atom α)
  | circled (base : Atom α)
  | rotated (degrees : α) (base : Atom α)
  | scaled (x y : α) (base : Atom α)
  /-- Rows stacked on each other. -/
  | lines (rows : List (Atom α)) (align : Alignment)

namespace Atom

variable {α : Type}

instance : Inhabited (Atom α) := ⟨empty⟩

/-- Whether the atom takes no part in the glue between atoms. -/
def isNeutral : Atom α → Bool
  | empty | breakMark | space _ | strut .. => true
  | _ => false

mutual

/-- Whether the atom holds nothing but empty atoms. -/
def isEmpty : Atom α → Bool
  | empty => true
  | row items => allEmpty items
  | _ => false

/-- Whether every item is empty. -/
def allEmpty : List (Atom α) → Bool
  | [] => true
  | a :: rest => a.isEmpty && allEmpty rest

end

mutual

/-- The class that the atom on the left sees. -/
def leftClass : Atom α → AtomClass
  | symbol _ _ kind => kind
  | typed left _ _ => left
  | row items => firstClass items
  | color _ _ base | scripts base _ _ | styled _ base | scaled _ _ base => base.leftClass
  | fraction .. => .inner
  | _ => .ordinary

/-- The left class of the first item that is not neutral. -/
def firstClass : List (Atom α) → AtomClass
  | [] => .ordinary
  | a :: rest => if a.isNeutral then firstClass rest else a.leftClass

end

mutual

/-- The class that the atom on the right sees. -/
def rightClass : Atom α → AtomClass
  | symbol _ _ kind => kind
  | typed _ right _ => right
  | row items => (lastClass? items).getD .ordinary
  | color _ _ base | scripts base _ _ | styled _ base | scaled _ _ base => base.rightClass
  | fraction .. => .inner
  | _ => .ordinary

/-- The right class of the last item that is not neutral. -/
def lastClass? : List (Atom α) → Option AtomClass
  | [] => none
  | a :: rest =>
    match lastClass? rest with
    | some kind => some kind
    | none => if a.isNeutral then none else some a.rightClass

end

mutual

/-- The visible leaves in reading order; wrappers that only restyle their base are looked through. -/
def leaves : Atom α → List (Atom α)
  | row items => allLeaves items
  | typed _ _ base | color _ _ base | styled _ base => base.leaves
  | empty | breakMark => []
  | a => [a]

/-- The leaves of all items in order. -/
def allLeaves : List (Atom α) → List (Atom α)
  | [] => []
  | a :: rest => a.leaves ++ allLeaves rest

end

mutual

/-- The middle delimiters of the tree, each node before its children. -/
def middles : Atom α → List Char
  | middle delimiter => [delimiter]
  | row items | lines items _ => allMiddles items
  | typed _ _ base | color _ _ base | styled _ base | vCentered base | framed base | oval base
  | circled base | rotated _ base | scaled _ _ base => base.middles
  | fraction num den => num.middles ++ den.middles
  | scripts base sup sub => base.middles ++ someMiddles sup ++ someMiddles sub
  | sqrt index base => base.middles ++ someMiddles index
  | empty | char _ | symbol .. | space _ | strut .. | text .. | breakMark => []

/-- The middle delimiters of all items in order. -/
def allMiddles : List (Atom α) → List Char
  | [] => []
  | a :: rest => a.middles ++ allMiddles rest

/-- The middle delimiters of a child that may be absent. -/
def someMiddles : Option (Atom α) → List Char
  | none => []
  | some a => a.middles

end

mutual

/-- Whether a color node stands anywhere in the tree. -/
def hasColor : Atom α → Bool
  | color .. => true
  | row items | lines items _ => anyColor items
  | typed _ _ base | styled _ base | vCentered base | framed base | oval base
  | circled base | rotated _ base | scaled _ _ base => base.hasColor
  | fraction num den => num.hasColor || den.hasColor
  | scripts base sup sub => base.hasColor || someColor sup || someColor sub
  | sqrt index base => base.hasColor || someColor index
  | empty | char _ | symbol .. | space _ | strut .. | text .. | breakMark | middle _ => false

/-- Whether a color node stands in one of the items. -/
def anyColor : List (Atom α) → Bool
  | [] => false
  | a :: rest => a.hasColor || anyColor rest

/-- Whether a color node stands in a child that may be absent. -/
def someColor : Option (Atom α) → Bool
  | none => false
  | some a => a.hasColor

end

/-- A group of items as one atom: nothing, the single item, or a row. -/
def group : List (Atom α) → Atom α
  | [] => empty
  | [a] => a
  | items => row items

end Atom

end FormulaInk
