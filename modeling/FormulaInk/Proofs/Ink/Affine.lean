import Mathlib
import FormulaInk.Picture.Transform
import FormulaInk.Proofs.Scalar.Exact

/-! Affine transforms in exact arithmetic: where points go, and how changes of user space follow one
another. -/

namespace FormulaInk.Transform

variable {α : Type} [Turns α] [Field α] [LinearOrder α]

theorem comp_assoc (t u v : Transform α) : (t.comp u).comp v = t.comp (u.comp v) := by
  simp only [comp, mk.injEq]
  refine ⟨?_, ?_, ?_, ?_, ?_, ?_⟩ <;> ring

@[simp] theorem apply_comp (t u : Transform α) (p : α × α) :
    (t.comp u).apply p = t.apply (u.apply p) := by
  simp only [comp, apply, Prod.mk.injEq]
  constructor <;> ring

theorem translation_comp (x y dx dy : α) :
    (translation x y).comp (translation dx dy) = translation (x + dx) (y + dy) := by
  simp [comp, translation, identity, Scalar.whole, add_comm]

@[simp] theorem apply_translate (t : Transform α) (x y : α) (p : α × α) :
    (t.translate x y).apply p = t.apply (p.1 + x, p.2 + y) := by
  rw [translate, apply_comp]
  simp [apply, translation, identity, Scalar.whole]

@[simp] theorem apply_scale (t : Transform α) (x y : α) (p : α × α) :
    (t.scale x y).apply p = t.apply (x * p.1, y * p.2) := by
  rw [scale, apply_comp]
  simp [apply, scaling, identity, Scalar.whole]

theorem translate_translate (t : Transform α) (x y dx dy : α) :
    (t.translate x y).translate dx dy = t.translate (x + dx) (y + dy) := by
  rw [translate, translate, comp_assoc, translation_comp]
  rfl

theorem translate_zero (t : Transform α) : t.translate 0 0 = t := by
  simp [translate, comp, translation, identity, Scalar.whole]

theorem apply_rotateAbout (t : Transform α) (theta a b : α) (p : α × α) :
    (t.rotateAbout theta a b).apply p =
      let s := (Scalar.sinCos theta).1
      let c := (Scalar.sinCos theta).2
      t.apply ((p.1 - a) * c - (p.2 - b) * s + a, (p.1 - a) * s + (p.2 - b) * c + b) := by
  rw [rotateAbout, apply_translate, rotate, apply_comp, apply_translate]
  congr 1
  simp only [rotation, apply, Scalar.whole_zero, Prod.mk.injEq]
  constructor <;> ring

/-- A turn around a point that was moved with user space is the turn, with user space moved
afterwards. -/
theorem rotateAbout_translate (t : Transform α) (theta x y dx dy : α) :
    (t.translate (-dx) (-dy)).rotateAbout theta (x + dx) (y + dy) =
      (t.rotateAbout theta x y).translate (-dx) (-dy) := by
  rw [rotateAbout, rotateAbout, translate_translate, translate_translate]
  congr 2
  · congr 1 <;> ring
  · ring
  · ring

end FormulaInk.Transform
