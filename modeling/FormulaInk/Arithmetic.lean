import FormulaInk.Halt

/-!
Arithmetic on words. What a number comes to that is too large for its word is up to the build: one
that checks its numbers panics, and one that does not goes on with the remainder.

A calculation whose steps only grow comes to what its last number comes to: `fit_add`, `fit_mul`.
-/

namespace FormulaInk

/-- What a build makes of numbers that are too large. -/
inductive Arithmetic where
  | checked
  | wrapping
  deriving DecidableEq, Repr

namespace Arithmetic

/-- What a number comes to as one of `size` words. -/
def fit (a : Arithmetic) (size n : Nat) : Except Panic Nat :=
  match a with
  | checked => if n < size then .ok n else .error .overflow
  | wrapping => .ok (n % size)

section Steps

variable {a : Arithmetic} {size n : Nat}

theorem fit_of_lt (h : n < size) : a.fit size n = .ok n := by
  cases a with
  | checked => exact if_pos h
  | wrapping => rw [fit, Nat.mod_eq_of_lt h]

theorem checked_of_le (h : size ≤ n) : checked.fit size n = .error .overflow :=
  if_neg (Nat.not_lt.mpr h)

/-- What a build goes on with is the number or its remainder. -/
theorem eq_mod_of_fit {k : Nat} (h : a.fit size n = .ok k) : k = n % size := by
  cases a with
  | checked =>
    by_cases fits : n < size
    · rw [fit_of_lt fits] at h
      rw [Nat.mod_eq_of_lt fits, Except.ok.inj h]
    · rw [checked_of_le (Nat.not_lt.mp fits)] at h
      cases h
  | wrapping => exact (Except.ok.inj h).symm

/-- An addition to a number that may have been too large already. -/
theorem fit_add (a : Arithmetic) (size n k : Nat) :
    (do a.fit size ((← a.fit size n) + k)) = a.fit size (n + k) := by
  cases a with
  | checked =>
    by_cases fits : n < size
    · rw [fit_of_lt fits]
      rfl
    · rw [checked_of_le (by omega), checked_of_le (by omega)]
      rfl
  | wrapping =>
    show Except.ok ((n % size + k) % size) = Except.ok ((n + k) % size)
    rw [Nat.mod_add_mod]

/-- A multiplication of a number that may have been too large already. -/
theorem fit_mul (a : Arithmetic) (size n : Nat) {k : Nat} (h : 0 < k) :
    (do a.fit size ((← a.fit size n) * k)) = a.fit size (n * k) := by
  cases a with
  | checked =>
    by_cases fits : n < size
    · rw [fit_of_lt fits]
      rfl
    · have grows : n ≤ n * k := Nat.le_mul_of_pos_right n h
      rw [checked_of_le (by omega), checked_of_le (by omega)]
      rfl
  | wrapping =>
    show Except.ok (n % size * k % size) = Except.ok (n * k % size)
    rw [Nat.mod_mul_mod]

end Steps

end Arithmetic

end FormulaInk
