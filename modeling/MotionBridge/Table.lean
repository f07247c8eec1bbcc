/-
MotionBridge/Table.lean

A finite table: under each key the value that was last put there.  Two laws
say all about it: what is found after `insert` and after `erase`.
-/

namespace MotionBridge

/-- A finite table. -/
structure Table (κ ν : Type) where
  /-- The values with their keys, each key at most once. -/
  entries : List (κ × ν) := []
deriving Repr

namespace Table

variable {κ ν : Type} [DecidableEq κ]

/-- The value under a key. -/
def find? (t : Table κ ν) (k : κ) : Option ν :=
  (t.entries.find? fun e => e.1 = k).map (·.2)

/-- Takes away what is under a key. -/
def erase (t : Table κ ν) (k : κ) : Table κ ν :=
  ⟨t.entries.filter fun e => e.1 ≠ k⟩

/-- Puts a value under a key, in place of what was there. -/
def insert (t : Table κ ν) (k : κ) (v : ν) : Table κ ν :=
  ⟨(k, v) :: (t.erase k).entries⟩

/-- A table with the given entries; of two under one key, the later counts. -/
def ofList (entries : List (κ × ν)) : Table κ ν :=
  entries.foldl (fun t e => t.insert e.1 e.2) ⟨[]⟩

@[simp] theorem find?_empty (k : κ) : (⟨[]⟩ : Table κ ν).find? k = none := rfl

theorem find?_erase (t : Table κ ν) (k j : κ) :
    (t.erase k).find? j = if j = k then none else t.find? j := by
  simp only [find?, erase]
  induction t.entries with
  | nil => simp
  | cons e rest ih =>
    by_cases hk : e.1 = k <;> by_cases hj : e.1 = j <;> grind

theorem find?_insert (t : Table κ ν) (k j : κ) (v : ν) :
    (t.insert k v).find? j = if j = k then some v else t.find? j := by
  by_cases h : j = k
  · simp [find?, insert, h]
  · have : (t.insert k v).find? j = (t.erase k).find? j := by
      simp [find?, insert, Ne.symm h]
    simp [this, find?_erase, h]

end Table

end MotionBridge
