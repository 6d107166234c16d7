import FormulaInk.Atom

/-! The parts of an atom, induction over them, and what a row shows of its items. -/

namespace FormulaInk

namespace Atom

variable {α : Type}

/-- The atoms right below an atom, in the order in which summaries visit them. -/
def parts : Atom α → List (Atom α)
  | row items | lines items _ => items
  | typed _ _ base | color _ _ base | styled _ base | vCentered base | framed base | oval base
  | circled base | rotated _ base | scaled _ _ base => [base]
  | fraction num den => [num, den]
  | scripts base sup sub => base :: (sup.toList ++ sub.toList)
  | sqrt index base => base :: index.toList
  | _ => []

theorem sizeOf_lt_of_mem_parts {a b : Atom α} (h : b ∈ a.parts) : sizeOf b < sizeOf a := by
  cases a with
  | row items =>
    have := List.sizeOf_lt_of_mem (show b ∈ items from h)
    simp only [row.sizeOf_spec]
    omega
  | lines items align =>
    have := List.sizeOf_lt_of_mem (show b ∈ items from h)
    simp only [lines.sizeOf_spec]
    omega
  | scripts base sup sub =>
    simp only [parts, List.mem_cons, List.mem_append, Option.mem_toList] at h
    rcases h with rfl | rfl | rfl <;> simp +arith
  | sqrt index base =>
    simp only [parts, List.mem_cons, Option.mem_toList] at h
    rcases h with rfl | rfl <;> simp +arith
  | fraction num den =>
    simp only [parts, List.mem_cons, List.not_mem_nil, or_false] at h
    rcases h with rfl | rfl <;> simp +arith
  | typed | color | styled | vCentered | framed | oval | circled | rotated | scaled =>
    simp only [parts, List.mem_singleton] at h
    subst h
    simp +arith
  | _ => simp [parts] at h

/-- What holds of an atom as soon as it holds of its parts holds of every atom. -/
theorem induction {motive : Atom α → Prop} (step : ∀ a, (∀ b ∈ a.parts, motive b) → motive a)
    (a : Atom α) : motive a :=
  step a fun b _ => induction step b
termination_by sizeOf a
decreasing_by exact sizeOf_lt_of_mem_parts ‹_›

section Classes

variable {f : Atom α → Atom α} {items : List (Atom α)}

theorem firstClass_map (neutral : ∀ b ∈ items, (f b).isNeutral = b.isNeutral)
    (same : ∀ b ∈ items, (f b).leftClass = b.leftClass) :
    firstClass (items.map f) = firstClass items := by
  induction items with
  | nil => rfl
  | cons b rest ih => simp_all [firstClass]

theorem lastClass?_map (neutral : ∀ b ∈ items, (f b).isNeutral = b.isNeutral)
    (same : ∀ b ∈ items, (f b).rightClass = b.rightClass) :
    lastClass? (items.map f) = lastClass? items := by
  induction items with
  | nil => rfl
  | cons b rest ih => simp_all [lastClass?]

end Classes

theorem anyColor_eq_any (items : List (Atom α)) : anyColor items = items.any hasColor := by
  induction items with
  | nil => rfl
  | cons a rest ih => simp [anyColor, ih]

/-- Color in a part is color in the whole. -/
theorem hasColor_of_mem_parts {a b : Atom α} (h : b ∈ a.parts) (colored : b.hasColor = true) :
    a.hasColor = true := by
  cases a with
  | row items | lines items _ =>
    rw [hasColor, anyColor_eq_any]
    exact List.any_eq_true.mpr ⟨b, h, colored⟩
  | fraction num den =>
    obtain rfl | rfl : b = num ∨ b = den := by simpa [parts] using h
    · simp [hasColor, colored]
    · simp [hasColor, colored]
  | scripts base sup sub =>
    simp only [parts, List.mem_cons, List.mem_append, Option.mem_toList] at h
    rcases h with rfl | rfl | rfl <;> simp [hasColor, someColor, colored]
  | sqrt index base =>
    simp only [parts, List.mem_cons, Option.mem_toList] at h
    rcases h with rfl | rfl <;> simp [hasColor, someColor, colored]
  | color => rfl
  | typed | styled | vCentered | framed | oval | circled | rotated | scaled =>
    obtain rfl := List.mem_singleton.mp h
    exact colored
  | _ => simp [parts] at h

end Atom

end FormulaInk
