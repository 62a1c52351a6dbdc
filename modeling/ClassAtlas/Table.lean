/-!
# Tables

A table associates keys with values. It is a list of pairs in which the first
pair of a key counts; writing a key removes its older pair, so that keys stay
distinct. `get?` is the view by which the operations are described.
-/

namespace ClassAtlas

/-- An association of keys with values. -/
structure Table (κ ν : Type) where
  /-- The pairs, the one written last first. -/
  entries : List (κ × ν)
  deriving Repr, DecidableEq

namespace Table

variable {κ ν : Type} [DecidableEq κ]

/-- The table without entries. -/
def empty : Table κ ν := ⟨[]⟩

/-- The value of a key. -/
def get? (table : Table κ ν) (key : κ) : Option ν :=
  (table.entries.find? (·.1 = key)).map (·.2)

/-- Whether a key has a value. -/
def contains (table : Table κ ν) (key : κ) : Bool :=
  (table.get? key).isSome

/-- The keys, the one written last first. -/
def keys (table : Table κ ν) : List κ :=
  table.entries.map (·.1)

/-- Removes a key. -/
def erase (table : Table κ ν) (key : κ) : Table κ ν :=
  ⟨table.entries.filter (·.1 ≠ key)⟩

/-- Gives a key a value, in place of any value it had. -/
def insert (table : Table κ ν) (key : κ) (value : ν) : Table κ ν :=
  ⟨(key, value) :: (table.erase key).entries⟩

/-- Gives a key a value unless it has one. -/
def insertNew (table : Table κ ν) (key : κ) (value : ν) : Table κ ν :=
  if table.contains key then table else table.insert key value

/-- Keeps the entries whose key passes a test. -/
def filterKeys (table : Table κ ν) (keep : κ → Bool) : Table κ ν :=
  ⟨table.entries.filter fun entry => keep entry.1⟩

@[simp] theorem get?_empty (key : κ) : (empty : Table κ ν).get? key = none := rfl

theorem get?_erase (table : Table κ ν) (key other : κ) :
    (table.erase key).get? other = if other = key then none else table.get? other := by
  unfold get? erase
  rw [List.find?_filter]
  by_cases h : other = key
  · subst h
    simp
  · rw [if_neg h]
    congr 2
    funext entry
    by_cases he : entry.1 = other
    · simp [he, h]
    · simp [he]

theorem get?_insert (table : Table κ ν) (key other : κ) (value : ν) :
    (table.insert key value).get? other
      = if other = key then some value else table.get? other := by
  by_cases h : other = key
  · subst h
    simp [get?, insert]
  · have herase := get?_erase table key other
    have hne : ¬ key = other := fun he => h he.symm
    rw [if_neg h] at herase ⊢
    rw [← herase]
    simp [get?, insert, hne]

theorem get?_insertNew (table : Table κ ν) (key other : κ) (value : ν) :
    (table.insertNew key value).get? other
      = if other = key ∧ table.get? key = none then some value else table.get? other := by
  unfold insertNew contains
  cases hk : table.get? key with
  | some v => simp
  | none => simp [get?_insert]

end Table

end ClassAtlas
