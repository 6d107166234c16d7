/-!
How a computation ends without a value: at a fault, which is returned to the caller, or at a panic,
after which nothing goes on that waits for it.
-/

namespace FormulaInk

/-- What a computation panics at. -/
inductive Panic where
  /-- A number does not fit its type. -/
  | overflow
  /-- Room is asked for that there cannot be. -/
  | capacity
  deriving DecidableEq, Repr

/-- Why a computation has no value. -/
inductive Halt (ε : Type) where
  | fault (e : ε)
  | panic (p : Panic)
  deriving DecidableEq, Repr

namespace Halt

variable {ε δ γ : Type}

/-- The same halt with its fault changed. -/
def map (f : ε → δ) : Halt ε → Halt δ
  | fault e => fault (f e)
  | panic p => panic p

@[simp] theorem map_fault (f : ε → δ) (e : ε) : (fault e).map f = fault (f e) := rfl

@[simp] theorem map_panic (f : ε → δ) (p : Panic) : (panic p : Halt ε).map f = panic p := rfl

end Halt

end FormulaInk
