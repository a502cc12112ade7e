import ResponseCache.Backend
import ResponseCache.Proofs.Table

namespace ResponseCache

/-- The record that a change leaves under its key. -/
def Change.record? : Change → Option Record
  | .store record => some record
  | .remove _ => none

theorem Change.get?_applyTo (change : Change) (records : Table Key Record) (key : Key) :
    (change.applyTo records).get? key = if change.key = key then change.record? else records.get? key := by
  cases change with
  | store record => exact Table.get?_insert records record.key key record
  | remove old => exact Table.get?_erase records old key

theorem Change.distinct_applyTo {records : Table Key Record} (h : records.Distinct) (change : Change) :
    (change.applyTo records).Distinct := by
  cases change with
  | store record => exact h.insert record.key record
  | remove key => exact h.erase key

namespace Backend

/-- What can be done to a backend. -/
inductive Op
  | change (change : Change)
  | insert (record : Record)
  | failNext (n : Nat)

def act (b : Backend) : Op → Backend
  | .change change => (b.apply change).2
  | .insert record => b.insert record
  | .failNext n => b.failNext n

def run (b : Backend) (ops : List Op) : Backend := ops.foldl act b

/-- Every record stands under its own key, and no two under one. -/
structure Orderly (records : Table Key Record) : Prop where
  distinct : records.Distinct
  keyed : ∀ key record, records.get? key = some record → record.key = key

theorem Orderly.empty : Orderly {} := by
  refine ⟨Table.distinct_empty, ?_⟩
  intro key record h
  simp [Table.get?, Table.find] at h

theorem Orderly.applyTo {records : Table Key Record} (h : Orderly records) (change : Change) :
    Orderly (change.applyTo records) := by
  refine ⟨Change.distinct_applyTo h.distinct change, ?_⟩
  intro key record hget
  cases change with
  | store new =>
    simp only [Change.applyTo, Table.get?_insert] at hget
    by_cases hk : new.key = key
    · rw [if_pos hk, Option.some.injEq] at hget
      rw [← hget, hk]
    · rw [if_neg hk] at hget
      exact h.keyed key record hget
  | remove old =>
    simp only [Change.applyTo, Table.get?_erase] at hget
    by_cases hk : old = key
    · simp [hk] at hget
    · rw [if_neg hk] at hget
      exact h.keyed key record hget

/-- A backend makes a change or leaves its records as they are. -/
theorem records_apply (b : Backend) (change : Change) :
    (b.apply change).2.records = b.records ∨ (b.apply change).2.records = change.applyTo b.records := by
  unfold apply
  split
  · exact .inl rfl
  · cases change with
    | store record => exact .inr rfl
    | remove key => exact .inr rfl

theorem apply_of_failing_eq_zero {b : Backend} (h : b.failing = 0) (change : Change) :
    ∃ answer b', b.apply change = (.ok answer, b') ∧ b'.records = change.applyTo b.records ∧ b'.failing = 0 := by
  have hnot : ¬0 < b.failing := by omega
  unfold apply
  rw [if_neg hnot]
  cases change with
  | store record => exact ⟨_, _, rfl, rfl, h⟩
  | remove key => exact ⟨_, _, rfl, rfl, h⟩

theorem Orderly.act {b : Backend} (h : Orderly b.records) (op : Op) : Orderly (b.act op).records := by
  cases op with
  | change change =>
    rcases b.records_apply change with hsame | hmade
    · exact hsame ▸ h
    · exact hmade ▸ h.applyTo change
  | insert record => exact h.applyTo (.store record)
  | failNext n => exact h

theorem Orderly.run (ops : List Op) : ∀ {b : Backend}, Orderly b.records → Orderly (b.run ops).records := by
  induction ops with
  | nil => exact fun h => h
  | cons op rest ih => exact fun h => ih (h.act op)

end Backend
end ResponseCache
