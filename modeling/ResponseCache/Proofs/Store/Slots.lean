import ResponseCache.Proofs.Table
import ResponseCache.Store
/-!
The slots of a store. Between operations no slot is vacant, and then the slot that an operation opens for itself leaves
no trace behind.
-/
namespace ResponseCache.Store

/-- Every key has at most one slot, no slot is vacant, and every entry stands under its own key. -/
structure Tidy (s : Store) : Prop where
  distinct : s.slots.Distinct
  occupied : ∀ key, s.slots.get? key ≠ some none
  keyed : ∀ key entry, s.live? key = some entry → entry.key = key

theorem live?_eq_some_iff (s : Store) (key : Key) (entry : Entry) :
    s.live? key = some entry ↔ s.slots.get? key = some (some entry) := by
  unfold live?
  cases s.slots.get? key with
  | none => simp
  | some slot => simp

theorem Tidy.live?_eq_none_iff {s : Store} (h : s.Tidy) (key : Key) :
    s.live? key = none ↔ s.slots.get? key = none := by
  unfold live?
  cases hget : s.slots.get? key with
  | none => simp
  | some slot =>
    cases slot with
    | none => exact absurd hget (h.occupied key)
    | some entry => simp

/-- Opening a slot changes nothing that is live. -/
theorem live?_openSlot (s : Store) (key key' : Key) : (s.openSlot key).live? key' = s.live? key' := by
  unfold openSlot
  split
  · rfl
  · rename_i hnot
    have hget : s.slots.get? key = none := by
      simpa [Table.contains] using hnot
    unfold live?
    rw [Table.get?_insert]
    by_cases hk : key = key'
    · rw [if_pos hk, ← hk, hget]
      rfl
    · rw [if_neg hk]

/-- A slot that was opened and is still as it was is taken back without a trace. -/
theorem releaseSlot_of_openSlot {s s' : Store} (h : s.Tidy) (key : Key) (hs : s'.slots = (s.openSlot key).slots) :
    s'.releaseSlot key = { s' with slots := s.slots } := by
  cases hget : s.slots.get? key with
  | none =>
    -- A new slot was opened, and it is still vacant.
    have hopen : (s.openSlot key).slots = s.slots.insert key none := by simp [openSlot, Table.contains, hget]
    have hvacant : s'.slots.get? key = some none := by
      rw [hs, hopen, Table.get?_insert, if_pos rfl]
    have herase : s'.slots.erase key = s.slots := by
      rw [hs, hopen, Table.erase_insert, Table.erase_of_get?_eq_none s.slots key hget]
    simp only [releaseSlot, hvacant, if_true, herase]
  | some slot =>
    have hopen : (s.openSlot key).slots = s.slots := by simp [openSlot, Table.contains, hget]
    have hkept : s'.slots = s.slots := hs.trans hopen
    have hoccupied : s'.slots.get? key ≠ some none := hkept ▸ h.occupied key
    simp only [releaseSlot, hoccupied, if_false, ← hkept]

theorem insert_of_openSlot (s : Store) (key : Key) (entry : Option Entry) :
    (s.openSlot key).slots.insert key entry = s.slots.insert key entry := by
  unfold openSlot
  split
  · rfl
  · exact Table.insert_insert s.slots key none entry

/-- The slot of a live entry is not taken back. -/
theorem releaseSlot_of_live {s : Store} {key : Key} {entry : Entry} (h : s.live? key = some entry) :
    s.releaseSlot key = s := by
  have hget : s.slots.get? key = some (some entry) := (s.live?_eq_some_iff key entry).mp h
  simp [releaseSlot, hget]

theorem Tidy.of_slots {s s' : Store} (h : s.Tidy) (hs : s'.slots = s.slots) : s'.Tidy := by
  have hlive (key : Key) : s'.live? key = s.live? key := by rw [live?, live?, hs]
  refine ⟨hs ▸ h.distinct, fun key => hs ▸ h.occupied key, ?_⟩
  intro key entry hentry
  exact h.keyed key entry (hlive key ▸ hentry)

theorem Tidy.insert {s s' : Store} (h : s.Tidy) {key : Key} {entry : Entry} (hk : entry.key = key)
    (hs : s'.slots = s.slots.insert key (some entry)) : s'.Tidy := by
  refine ⟨hs ▸ h.distinct.insert key (some entry), ?_, ?_⟩
  · intro key'
    rw [hs, Table.get?_insert]
    by_cases hkey : key = key'
    · simp [hkey]
    · rw [if_neg hkey]
      exact h.occupied key'
  · intro key' entry' hentry
    rw [live?_eq_some_iff, hs, Table.get?_insert] at hentry
    by_cases hkey : key = key'
    · rw [if_pos hkey, Option.some.injEq, Option.some.injEq] at hentry
      rw [← hentry, hk, hkey]
    · rw [if_neg hkey] at hentry
      exact h.keyed key' entry' ((s.live?_eq_some_iff key' entry').mpr hentry)

theorem Tidy.erase {s s' : Store} (h : s.Tidy) {key : Key} (hs : s'.slots = s.slots.erase key) : s'.Tidy := by
  refine ⟨hs ▸ h.distinct.erase key, ?_, ?_⟩
  · intro key'
    rw [hs, Table.get?_erase]
    by_cases hkey : key = key'
    · simp [hkey]
    · rw [if_neg hkey]
      exact h.occupied key'
  · intro key' entry hentry
    rw [live?_eq_some_iff, hs, Table.get?_erase] at hentry
    by_cases hkey : key = key'
    · simp [hkey] at hentry
    · rw [if_neg hkey] at hentry
      exact h.keyed key' entry ((s.live?_eq_some_iff key' entry).mpr hentry)

/-- A store without slots. -/
theorem Tidy.empty {s : Store} (h : s.slots = {}) : s.Tidy := by
  refine ⟨h ▸ Table.distinct_empty, ?_, ?_⟩
  · intro key
    rw [h]
    simp [Table.get?, Table.find]
  · intro key entry hentry
    rw [live?_eq_some_iff, h] at hentry
    simp [Table.get?, Table.find] at hentry

end ResponseCache.Store
