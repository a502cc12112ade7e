import ResponseCache.Proofs.Backend

namespace ResponseCache

/-- The bytes that a record carries, none where there is no record. -/
def bytesOf (record : Option Record) : Nat := (record.map (·.sizeBytes)).getD 0

/-- The bytes that rows of records carry together. -/
def weightOf (rows : List (Key × Record)) : Nat := rows.foldr (fun row n => row.2.sizeBytes + n) 0

theorem weightOf_cons (key : Key) (record : Record) (rows : List (Key × Record)) :
    weightOf ((key, record) :: rows) = record.sizeBytes + weightOf rows := rfl

theorem weightOf_place (key : Key) (record : Record) (rows : List (Key × Record)) :
    weightOf (Table.place key record rows) + bytesOf (Table.find key rows) = weightOf rows + record.sizeBytes := by
  induction rows with
  | nil => simp [weightOf, bytesOf, Table.place, Table.find]
  | cons row rest ih =>
    obtain ⟨key', old⟩ := row
    by_cases hk : key' = key
    · have hold : bytesOf (some old) = old.sizeBytes := rfl
      rw [Table.place, if_pos hk, Table.find, if_pos hk, weightOf_cons, weightOf_cons, hold]
      omega
    · rw [Table.place, if_neg hk, Table.find, if_neg hk, weightOf_cons, weightOf_cons]
      omega

theorem weightOf_filter (key : Key) (rows : List (Key × Record)) (hd : (rows.map (·.1)).Nodup) :
    weightOf (rows.filter fun row => row.1 ≠ key) + bytesOf (Table.find key rows) = weightOf rows := by
  induction rows with
  | nil => simp [weightOf, bytesOf, Table.find]
  | cons row rest ih =>
    obtain ⟨key', old⟩ := row
    obtain ⟨hnew, hrest⟩ := List.nodup_cons.mp hd
    have ih := ih hrest
    by_cases hk : key' = key
    · -- No other row has this key.
      have hnone : bytesOf (Table.find key rest) = 0 := by
        rw [(Table.find_eq_none_iff key rest).mpr (hk ▸ hnew)]
        rfl
      have hold : bytesOf (some old) = old.sizeBytes := rfl
      rw [List.filter_cons_of_neg (by simpa using hk), Table.find, if_pos hk, weightOf_cons, hold]
      omega
    · rw [List.filter_cons_of_pos (by simpa using hk), Table.find, if_neg hk, weightOf_cons, weightOf_cons]
      omega

namespace Backend

/-- No two records stand under one key, and the number of bytes is that of the records. -/
structure Weighed (b : Backend) : Prop where
  distinct : b.records.Distinct
  total : b.totalBytes = weightOf b.records.rows

variable {b : Backend}

/-- An erasure takes the bytes of the record off, and they are there. -/
theorem Weighed.totalBytes_erase (h : b.Weighed) (key : Key) :
    (b.erase key).totalBytes + b.sizeAt key = b.totalBytes ∧ (b.erase key).Weighed := by
  have hweight := weightOf_filter key b.records.rows h.distinct
  have hsize : b.sizeAt key = bytesOf (Table.find key b.records.rows) := rfl
  have htotal := h.total
  have herase : (b.erase key).totalBytes = b.totalBytes - b.sizeAt key := rfl
  have hrows : (b.erase key).records.rows = b.records.rows.filter fun row => row.1 ≠ key := rfl
  refine ⟨by omega, h.distinct.erase key, ?_⟩
  rw [hrows]
  omega

/-- An insertion puts the bytes of the record on, and takes those of the record before it off. -/
theorem Weighed.totalBytes_insert (h : b.Weighed) (record : Record) :
    (b.insert record).totalBytes + b.sizeAt record.key = b.totalBytes + record.sizeBytes ∧ (b.insert record).Weighed := by
  have hweight := weightOf_place record.key record b.records.rows
  have hheld := (h.totalBytes_erase record.key).1
  have hsize : b.sizeAt record.key = bytesOf (Table.find record.key b.records.rows) := rfl
  have htotal := h.total
  have hinsert : (b.insert record).totalBytes = b.totalBytes - b.sizeAt record.key + record.sizeBytes := rfl
  have hrows : (b.insert record).records.rows = Table.place record.key record b.records.rows := rfl
  refine ⟨by omega, h.distinct.insert record.key record, ?_⟩
  rw [hrows]
  omega

theorem Weighed.apply (h : b.Weighed) (change : Change) : (b.apply change).2.Weighed := by
  unfold Backend.apply
  split
  · exact ⟨h.distinct, h.total⟩
  · cases change with
    | store record => exact ⟨(h.totalBytes_insert record).2.distinct, (h.totalBytes_insert record).2.total⟩
    | remove key => exact ⟨(h.totalBytes_erase key).2.distinct, (h.totalBytes_erase key).2.total⟩

theorem Weighed.act (h : b.Weighed) (op : Op) : (b.act op).Weighed := by
  cases op with
  | change change => exact h.apply change
  | insert record => exact (h.totalBytes_insert record).2
  | failNext n => exact ⟨h.distinct, h.total⟩

/-- Whatever is done to a backend, it stays weighed. -/
theorem Weighed.run (ops : List Op) : ∀ {b : Backend}, b.Weighed → (b.run ops).Weighed := by
  induction ops with
  | nil => exact fun h => h
  | cons op rest ih => exact fun h => ih (h.act op)

end Backend
end ResponseCache
