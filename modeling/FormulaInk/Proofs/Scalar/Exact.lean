import Mathlib.Algebra.BigOperators.Group.List.Basic
import Mathlib.Algebra.Order.AbsoluteValue.Basic
import Mathlib.Algebra.Order.Field.Basic
import FormulaInk.Scalar

/-! Exact arithmetic: the numbers of any ordered field as lengths and coordinates. -/

namespace FormulaInk

/-- What angles are to an ordered field, which has no sines and cosines of its own. -/
class Turns (α : Type) where
  sinCos : α → α × α
  degree : α

namespace Scalar

/-- Exact numbers have no wider arithmetic than their own. -/
instance (priority := low) exactWidening {α : Type} [Turns α] : Widening α α := ⟨id⟩

variable {α : Type} [Turns α]

variable [Field α] [LinearOrder α]

/-- Whole numbers are themselves, and no number is the largest. -/
instance (priority := low) exact : Scalar α where
  whole n := n
  decLt := inferInstance
  decLe := inferInstance
  sinCos := Turns.sinCos
  degree := Turns.degree
  largest := none

@[simp] theorem whole_zero : (whole 0 : α) = 0 := Nat.cast_zero

@[simp] theorem sum_eq_sum (xs : List α) : sum xs = xs.sum := by
  rw [sum, whole_zero]
  exact List.sum_eq_foldl.symm

theorem whole_eq (n : Nat) : (whole n : α) = n := rfl

theorem ratio_eq (n d : Nat) : (ratio n d : α) = n / d := rfl

theorem max_eq (a b : α) : max a b = a ⊔ b := by
  rw [max, max_def_lt, if_pos (le_refl a)]

theorem min_eq (a b : α) : min a b = a ⊓ b := by
  rw [min, inf_comm, min_def_lt, if_pos (le_refl a)]

theorem foldl_max_le_iff {xs : List α} {a c : α} :
    xs.foldl max a ≤ c ↔ ∀ b ∈ a :: xs, b ≤ c := by
  induction xs generalizing a with
  | nil => simp
  | cons x rest ih =>
    rw [List.foldl_cons, ih, max_eq]
    simp [and_assoc]

theorem le_foldl_min_iff {xs : List α} {a c : α} :
    c ≤ xs.foldl min a ↔ ∀ b ∈ a :: xs, c ≤ b := by
  induction xs generalizing a with
  | nil => simp
  | cons x rest ih =>
    rw [List.foldl_cons, ih, min_eq]
    simp [and_assoc]

theorem le_foldl_max {xs : List α} {a b : α} (h : b ∈ a :: xs) : b ≤ xs.foldl max a :=
  foldl_max_le_iff.mp (le_refl _) b h

theorem le_least_iff {x c : α} {xs : List α} : c ≤ least x xs ↔ ∀ b ∈ x :: xs, c ≤ b := by
  show c ≤ (x :: xs).foldl min x ↔ _
  rw [le_foldl_min_iff]
  simp

theorem greatest_le_iff {x c : α} {xs : List α} : greatest x xs ≤ c ↔ ∀ b ∈ x :: xs, b ≤ c := by
  show (x :: xs).foldl max x ≤ c ↔ _
  rw [foldl_max_le_iff]
  simp

theorem least_le {x b : α} {xs : List α} (h : b ∈ x :: xs) : least x xs ≤ b :=
  le_least_iff.mp (le_refl _) b h

theorem le_greatest {x b : α} {xs : List α} (h : b ∈ x :: xs) : b ≤ greatest x xs :=
  greatest_le_iff.mp (le_refl _) b h

theorem abs_eq [IsStrictOrderedRing α] (a : α) : abs a = |a| := by
  rw [abs, whole_zero]
  split
  · next below => rw [abs_of_neg below]
  · next above => rw [abs_of_nonneg (not_lt.mp above)]

end Scalar

end FormulaInk
