namespace ResponseCache

/-- A finite table, written down as its rows. -/
structure Table (κ υ : Type) where
  rows : List (κ × υ) := []
  deriving Repr

namespace Table
variable {κ υ : Type} [DecidableEq κ]

def find (k : κ) : List (κ × υ) → Option υ
  | [] => none
  | (k', v) :: rest => if k' = k then some v else find k rest

/-- The value in the row of `k`. -/
def get? (t : Table κ υ) (k : κ) : Option υ := find k t.rows

/-- Rows with `v` under `k`: in place when the key has a row, else in a new last row. -/
def place (k : κ) (v : υ) : List (κ × υ) → List (κ × υ)
  | [] => [(k, v)]
  | (k', v') :: rest => if k' = k then (k, v) :: rest else (k', v') :: place k v rest

def insert (t : Table κ υ) (k : κ) (v : υ) : Table κ υ := ⟨place k v t.rows⟩

def erase (t : Table κ υ) (k : κ) : Table κ υ := ⟨t.rows.filter fun row => row.1 ≠ k⟩

def contains (t : Table κ υ) (k : κ) : Bool := (t.get? k).isSome

def keys (t : Table κ υ) : List κ := t.rows.map (·.1)

def values (t : Table κ υ) : List υ := t.rows.map (·.2)

def size (t : Table κ υ) : Nat := t.rows.length

theorem find_place (k k' : κ) (v : υ) (rows : List (κ × υ)) :
    find k' (place k v rows) = if k = k' then some v else find k' rows := by
  induction rows with
  | nil => simp [place, find]
  | cons row rest ih => grind [place, find]

theorem find_filter (k k' : κ) (rows : List (κ × υ)) :
    find k' (rows.filter fun row => row.1 ≠ k) = if k = k' then none else find k' rows := by
  induction rows with
  | nil => simp [find]
  | cons row rest ih => grind [find]

@[simp] theorem get?_empty (k : κ) : (Table.mk [] : Table κ υ).get? k = none := rfl

/-- An insertion shows under its own key only. -/
theorem get?_insert (t : Table κ υ) (k k' : κ) (v : υ) :
    (t.insert k v).get? k' = if k = k' then some v else t.get? k' := find_place k k' v t.rows

/-- An erasure empties its own key only. -/
theorem get?_erase (t : Table κ υ) (k k' : κ) :
    (t.erase k).get? k' = if k = k' then none else t.get? k' := find_filter k k' t.rows

end Table
end ResponseCache
