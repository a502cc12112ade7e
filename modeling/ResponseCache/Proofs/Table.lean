import Mathlib.Data.List.Nodup
import ResponseCache.Table

namespace ResponseCache.Table
variable {κ υ : Type}

/-- No key stands in two rows. -/
def Distinct (t : Table κ υ) : Prop := t.keys.Nodup

theorem distinct_empty : (Table.mk [] : Table κ υ).Distinct := List.nodup_nil

variable [DecidableEq κ]

theorem find_eq_none_iff (k : κ) (rows : List (κ × υ)) : find k rows = none ↔ k ∉ rows.map (·.1) := by
  induction rows with
  | nil => simp [find]
  | cons row rest ih =>
    obtain ⟨k', v⟩ := row
    by_cases hk : k' = k
    · simp [find, hk]
    · have hk' : k ≠ k' := fun h => hk h.symm
      simp only [find, hk, if_false, ih, List.map_cons, List.mem_cons, hk', false_or]

/-- A key has no value when it has no row. -/
theorem get?_eq_none_iff (t : Table κ υ) (k : κ) : t.get? k = none ↔ k ∉ t.keys := find_eq_none_iff k t.rows

theorem find_eq_some_iff (k : κ) (v : υ) (rows : List (κ × υ)) (hd : (rows.map (·.1)).Nodup) :
    find k rows = some v ↔ (k, v) ∈ rows := by
  induction rows with
  | nil => simp [find]
  | cons row rest ih =>
    obtain ⟨k', v'⟩ := row
    simp only [List.map_cons, List.nodup_cons] at hd
    obtain ⟨hnew, hrest⟩ := hd
    by_cases hk : k' = k
    · subst hk
      have hnot : (k', v) ∉ rest := fun hm => hnew (List.mem_map.mpr ⟨(k', v), hm, rfl⟩)
      simp only [find, if_true, Option.some.injEq, List.mem_cons, Prod.mk.injEq, true_and, hnot, or_false]
      exact eq_comm
    · have hne : (k, v) ≠ (k', v') := fun h => hk (congrArg Prod.fst h).symm
      simp only [find, hk, if_false, ih hrest, List.mem_cons, hne, false_or]

/-- When keys are distinct, every row shows under its key. -/
theorem get?_eq_some_iff (t : Table κ υ) (hd : t.Distinct) (k : κ) (v : υ) : t.get? k = some v ↔ (k, v) ∈ t.rows :=
  find_eq_some_iff k v t.rows hd

theorem place_of_not_mem (k : κ) (v : υ) (rows : List (κ × υ)) (hk : k ∉ rows.map (·.1)) :
    place k v rows = rows ++ [(k, v)] := by
  induction rows with
  | nil => rfl
  | cons row rest ih =>
    obtain ⟨k', v'⟩ := row
    simp only [List.map_cons, List.mem_cons, not_or] at hk
    have hne : ¬k' = k := fun h => hk.1 h.symm
    simp only [place, hne, if_false, ih hk.2, List.cons_append]

theorem place_place (k : κ) (v w : υ) (rows : List (κ × υ)) : place k w (place k v rows) = place k w rows := by
  induction rows with
  | nil => simp [place]
  | cons row rest ih =>
    obtain ⟨k', v'⟩ := row
    by_cases hk : k' = k
    · simp [place, hk]
    · simp only [place, hk, if_false, ih]

/-- The later of two insertions under one key stays. -/
theorem insert_insert (t : Table κ υ) (k : κ) (v w : υ) : (t.insert k v).insert k w = t.insert k w :=
  congrArg Table.mk (place_place k v w t.rows)

theorem filter_place (k : κ) (v : υ) (rows : List (κ × υ)) :
    (place k v rows).filter (fun row => row.1 ≠ k) = rows.filter fun row => row.1 ≠ k := by
  induction rows with
  | nil => simp [place]
  | cons row rest ih =>
    obtain ⟨k', v'⟩ := row
    by_cases hk : k' = k
    · simp [place, hk]
    · simp only [place, hk, if_false, List.filter_cons, ih]

/-- An insertion leaves nothing behind once its key is erased. -/
theorem erase_insert (t : Table κ υ) (k : κ) (v : υ) : (t.insert k v).erase k = t.erase k :=
  congrArg Table.mk (filter_place k v t.rows)

theorem erase_of_get?_eq_none (t : Table κ υ) (k : κ) (hk : t.get? k = none) : t.erase k = t := by
  have hmem : k ∉ t.keys := (t.get?_eq_none_iff k).mp hk
  have hall : ∀ row ∈ t.rows, decide (row.1 ≠ k) = true := by
    intro row hrow
    have hne : row.1 ≠ k := fun h => hmem (h ▸ List.mem_map_of_mem hrow)
    simpa using hne
  exact congrArg Table.mk (List.filter_eq_self.mpr hall)

theorem keys_erase (t : Table κ υ) (k : κ) : (t.erase k).keys = t.keys.filter fun k' => k' ≠ k := by
  simp only [keys, erase, List.filter_map]
  rfl

theorem keys_place (k : κ) (v : υ) (rows : List (κ × υ)) (hk : k ∈ rows.map (·.1)) :
    (place k v rows).map (·.1) = rows.map (·.1) := by
  induction rows with
  | nil => simp at hk
  | cons row rest ih =>
    obtain ⟨k', v'⟩ := row
    by_cases hk' : k' = k
    · simp [place, hk']
    · have hrest : k ∈ rest.map (·.1) := by
        rcases List.mem_cons.mp hk with h | h
        · exact absurd h.symm hk'
        · exact h
      simp only [place, hk', if_false, List.map_cons, ih hrest]

/-- An insertion keeps the keys as they are, or puts a new one behind them. -/
theorem keys_insert (t : Table κ υ) (k : κ) (v : υ) :
    (t.insert k v).keys = if k ∈ t.keys then t.keys else t.keys ++ [k] := by
  by_cases hk : k ∈ t.keys
  · rw [if_pos hk]
    exact keys_place k v t.rows hk
  · rw [if_neg hk]
    have hrows : (t.insert k v).rows = t.rows ++ [(k, v)] := place_of_not_mem k v t.rows hk
    simp only [keys, hrows, List.map_append, List.map_cons, List.map_nil]

theorem Distinct.insert {t : Table κ υ} (hd : t.Distinct) (k : κ) (v : υ) : (t.insert k v).Distinct := by
  unfold Distinct
  rw [keys_insert]
  by_cases hk : k ∈ t.keys
  · rw [if_pos hk]
    exact hd
  · rw [if_neg hk]
    refine List.nodup_append.mpr ⟨hd, List.nodup_singleton k, ?_⟩
    intro a ha b hb hab
    rw [List.mem_singleton] at hb
    exact hk (hb ▸ hab ▸ ha)

theorem Distinct.erase {t : Table κ υ} (hd : t.Distinct) (k : κ) : (t.erase k).Distinct := by
  unfold Distinct
  rw [keys_erase]
  exact List.Nodup.filter _ hd

end ResponseCache.Table
