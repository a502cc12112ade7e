import ResponseCache.Proofs.Backend
import ResponseCache.Proofs.Mirror

namespace ResponseCache

/-- The keys of the records are the keys of the table. -/
theorem Backend.Orderly.map_key {records : Table Key Record} (h : Orderly records) :
    records.values.map (·.key) = records.keys := by
  unfold Table.values Table.keys
  rw [List.map_map]
  apply List.map_congr_left
  intro row hrow
  exact h.keyed row.1 row.2 ((records.get?_eq_some_iff h.distinct row.1 row.2).mpr hrow)

namespace Store

/-- A store and streams before and after records with distinct keys were taken in, none of whose keys was live. -/
structure Restored (records : List Record) (streams : Streams) (s : Store) (streams' : Streams) (s' : Store) : Prop where
  keeps : streams.Keeps streams'
  tidy : s'.Tidy
  journal : s'.journal = s.journal
  shows : ∀ record ∈ records, s'.recordOf streams' record.key = some record
  others : ∀ key, key ∉ records.map (·.key) → s'.live? key = s.live? key

theorem restored (now : Moment) (records : List Record) : ∀ (streams : Streams) {s : Store}, s.Tidy →
    (records.map (·.key)).Nodup → (∀ record ∈ records, record.identity.isAbsent = false) →
    (∀ record ∈ records, s.live? record.key = none) →
    Restored records streams s (restore now records streams s).2.1 (restore now records streams s).2.2 := by
  -- The induction carries along that the keys of the records to come are not live yet.
  induction records with
  | nil =>
    intro streams s hs _ _ _
    exact ⟨.refl streams, hs, rfl, by simp, fun _ _ => rfl⟩
  | cons record rest ih =>
    intro streams s hs hnodup hpresent hvacant
    have hone := restoring now record streams s
    simp only [restore]
    generalize restoreOne now record streams s = result at hone ⊢
    obtain ⟨isNew, streams₁, s₁⟩ := result
    simp only [List.map_cons, List.nodup_cons] at hnodup hone ⊢
    obtain ⟨hfresh, hrest⟩ := hnodup
    have hidentity := hpresent record List.mem_cons_self
    have hkey := hvacant record List.mem_cons_self
    -- The record is neither skipped nor passed over.
    have hnew : isNew = true ∧ streams₁ = (record.toEntry streams now.date).2 := by
      cases hone with
      | skipped habsent => exact absurd (habsent.symm.trans hidentity) (by simp)
      | passed entry hsome hlive => exact absurd (hlive.symm.trans hkey) (by simp)
      | installed hsome hlive => exact ⟨rfl, rfl⟩
    have hlive₁ (key : Key) : s₁.live? key =
        if record.key = key then some (record.toEntry streams now.date).1 else s.live? key := by
      rw [hone.live? key]
      simp only [hnew.1, true_and]
    have hlater : ∀ r ∈ rest, s₁.live? r.key = none := by
      intro r hr
      have hne : record.key ≠ r.key := fun h => hfresh (h ▸ List.mem_map_of_mem hr)
      rw [hlive₁, if_neg hne]
      exact hvacant r (List.mem_cons_of_mem record hr)
    have hih := ih streams₁ (hone.tidy hs) hrest
      (fun r hr => hpresent r (List.mem_cons_of_mem record hr)) hlater
    refine ⟨hone.keeps.trans hih.keeps, hih.tidy, hih.journal.trans hone.journal_eq, ?_, ?_⟩
    · intro r hr
      rcases List.mem_cons.mp hr with rfl | hmem
      · have hentry : (restore now rest streams₁ s₁).2.2.live? r.key = some (r.toEntry streams now.date).1 := by
          rw [hih.others r.key hfresh, hlive₁, if_pos rfl]
        have hr₁ : Record.ofEntry streams₁ (r.toEntry streams now.date).1 = .ok r :=
          hnew.2 ▸ r.ofEntry_toEntry streams now.date
        exact recordOf_eq_some hentry (Record.ofEntry_of_keeps hih.keeps hr₁)
      · exact hih.shows r hmem
    · intro key hnot
      rw [List.map_cons, List.mem_cons, not_or] at hnot
      have hne : ¬record.key = key := fun h => hnot.1 h.symm
      rw [hih.others key hnot.2, hlive₁, if_neg hne]

end Store

/-- A store that was vacant and has taken in all records of a backend mirrors them. -/
theorem mirrors_restored {backend : Backend} {records : List Record} (streams : Streams) (s : Store) (j : Journal)
    (now : Moment) (horderly : Backend.Orderly backend.records) (hwilling : backend.failing = 0)
    (hperm : records.Perm backend.load) (hpresent : ∀ record ∈ records, record.identity.isAbsent = false)
    (hslots : s.slots = {}) (hn : j.Numbered) (hidle : j.awaiting = []) (hkept : j.cancelled = false)
    (hclean : j.failures = []) (hunfailed : j.hand.unfiled? = none) :
    (s.restore now records streams).2.2.journal = s.journal ∧
      Mirrors (s.restore now records streams).2.1 backend (s.restore now records streams).2.2 j := by
  have hlive (key : Key) : s.live? key = none := by
    rw [Store.live?, hslots]
    rfl
  have hkeys : (records.map (·.key)).Perm backend.records.keys := by
    rw [← horderly.map_key]
    exact hperm.map _
  have hnodup : (records.map (·.key)).Nodup := hkeys.nodup_iff.mpr horderly.distinct
  have hres := Store.restored now records streams (Store.Tidy.empty hslots) hnodup hpresent
    fun record _ => hlive record.key
  have houtcome : j.outcome backend.records = backend.records := by rw [Journal.outcome, hidle, List.foldl_nil]
  generalize s.restore now records streams = result at hres ⊢
  obtain ⟨n, streams', s'⟩ := result
  simp only at hres ⊢
  -- A key of the backend has got its record; all other keys are vacant as they were.
  have hshows : ∀ key, backend.records.get? key = s'.recordOf streams' key := by
    intro key
    cases hget : backend.records.get? key with
    | some record =>
      have hrow := (backend.records.get?_eq_some_iff horderly.distinct key record).mp hget
      have hmem : record ∈ records := hperm.mem_iff.mpr (List.mem_map.mpr ⟨(key, record), hrow, rfl⟩)
      rw [← horderly.keyed key record hget]
      exact (hres.shows record hmem).symm
    | none =>
      have hnot : key ∉ records.map (·.key) := by
        rw [hkeys.mem_iff]
        exact (backend.records.get?_eq_none_iff key).mp hget
      rw [Store.recordOf, hres.others key hnot, hlive, Option.bind_none]
  refine ⟨hres.journal, hres.tidy, ?_, hwilling, horderly.distinct, hn, hkept, hclean, hunfailed, ?_⟩
  · intro key entry hentry
    have hmem : key ∈ records.map (·.key) := by
      by_contra hnot
      rw [hres.others key hnot, hlive] at hentry
      exact absurd hentry (by simp)
    obtain ⟨record, hrecord, hkey⟩ := List.mem_map.mp hmem
    have hshown := hres.shows record hrecord
    rw [hkey, Store.recordOf, hentry, Option.bind_some] at hshown
    cases hr : Record.ofEntry streams' entry with
    | error e => simp [hr, Except.toOption] at hshown
    | ok r => exact (Record.of_ofEntry hr).2.2
  · rw [houtcome]
    exact hshows

end ResponseCache
