import ResponseCache.Proofs.Encoding
import ResponseCache.Proofs.WarmStart

namespace ResponseCache.System

/-- A persistent system at its beginning, over an empty backend, or with all the records of its backend taken in. -/
inductive Begins : System → Prop
  | empty (config : Config) (origin : Origin) (publisher : Publisher) (backend : Backend)
      (hempty : backend.records = {}) (hwilling : backend.failing = 0) :
      Begins (start config true origin publisher backend)
  | warm (config : Config) (origin : Origin) (publisher : Publisher) (streams : Streams) (first : Backend)
      (ops : List Backend.Op) (now : Moment) (records : List Record) (hempty : first.records = {})
      (hwilling : (first.run ops).failing = 0) (hperm : records.Perm (first.run ops).load)
      (hpresent : ∀ record ∈ records, record.identity.isAbsent = false) :
      Begins ({ start config true origin publisher (first.run ops) with streams }.step (.restore now records))

/-- The records are those of the live entries, and no others. -/
structure MirroredBy (y : System) (records : Table Key Record) : Prop where
  keys : records.keys.Perm y.store.keys
  live : ∀ key entry, y.store.live? key = some entry →
    ∃ record, Record.ofEntry y.streams entry = .ok record ∧ records.get? key = some record
  others : ∀ key, y.store.live? key = none → records.get? key = none

theorem mirrors_begins {y : System} (h : Begins y) :
    ∃ j, y.store.journal = some j ∧ Mirrors y.streams y.backend y.store j := by
  cases h with
  | empty config origin publisher backend hempty hwilling =>
    -- An empty backend is one with no records to take in.
    have hperm : [].Perm backend.load := by simp [Backend.load, Table.values, hempty]
    have hrestored := mirrors_restored {} (start config true origin publisher backend).store
      { patience := config.flushTimeout, warnAbove := config.queueWarn } ⟨0⟩ (hempty ▸ .empty) hwilling hperm (by simp) rfl
      (Journal.numbered_of_fresh rfl rfl rfl) rfl rfl rfl rfl
    exact ⟨_, rfl, hrestored.2⟩
  | warm config origin publisher streams first ops now records hempty hwilling hperm hpresent =>
    have horderly : Backend.Orderly (first.run ops).records := Backend.Orderly.run ops (hempty ▸ .empty)
    have hrestored := mirrors_restored streams (start config true origin publisher (first.run ops)).store
      { patience := config.flushTimeout, warnAbove := config.queueWarn } now horderly hwilling hperm hpresent rfl
      (Journal.numbered_of_fresh rfl rfl rfl) rfl rfl rfl rfl
    exact ⟨_, hrestored.1, hrestored.2⟩

/-- A table that shows the record of every live entry has just these. -/
theorem mirroredBy_of_shows {y : System} {records : Table Key Record} (htidy : y.store.Tidy)
    (hsealed : ∀ key entry, y.store.live? key = some entry → entry.Sealed y.streams) (hdistinct : records.Distinct)
    (hshows : ∀ key, records.get? key = y.store.recordOf y.streams key) : y.MirroredBy records := by
  have hlive : ∀ key entry, y.store.live? key = some entry →
      ∃ record, Record.ofEntry y.streams entry = .ok record ∧ records.get? key = some record := by
    intro key entry hentry
    obtain ⟨record, hr⟩ := Record.exists_ofEntry (hsealed key entry hentry)
    exact ⟨record, hr, (hshows key).trans (Store.recordOf_eq_some hentry hr)⟩
  have hothers : ∀ key, y.store.live? key = none → records.get? key = none := by
    intro key hnone
    rw [hshows key, Store.recordOf, hnone, Option.bind_none]
  refine ⟨?_, hlive, hothers⟩
  rw [List.perm_ext_iff_of_nodup hdistinct (Store.nodup_keys htidy)]
  intro key
  rw [Store.mem_keys_iff htidy]
  constructor
  · intro hmem
    cases hentry : y.store.live? key with
    | none => exact absurd hmem ((records.get?_eq_none_iff key).mp (hothers key hentry))
    | some entry => exact ⟨entry, rfl⟩
  · rintro ⟨entry, hentry⟩
    obtain ⟨record, -, hget⟩ := hlive key entry hentry
    by_contra hnot
    rw [(records.get?_eq_none_iff key).mpr hnot] at hget
    exact absurd hget (by simp)

/-- At any time the changes that wait make the records of the backend those of the live entries. When nothing is pending,
as after a flush behind which nothing was submitted or when the writer is idle after a shutdown, they are that already; and
no flush has a failure to report. -/
theorem durable_mirror {y₀ y : System} (h₀ : Begins y₀) (moves : List Move) (hm : ∀ m ∈ moves, m.Ordinary)
    (hy : y = y₀.run moves) :
    ∃ j, y.store.journal = some j ∧ y.MirroredBy (j.outcome y.backend.records) ∧
      (j.pending = 0 → y.MirroredBy y.backend.records) ∧ (j.isIdle = true → j.pending = 0) ∧
      (∀ b, b.target = j.lastSeq → j.reached b = true → j.pending = 0) ∧ ∀ b, (j.collect b).1 = .ok () := by
  have hrun := kept_mirrors.run moves hm (mirrors_begins h₀)
  rw [← hy] at hrun
  obtain ⟨j, hj, h⟩ := hrun
  refine ⟨j, hj, mirroredBy_of_shows h.tidy h.sealed (j.distinct_outcome h.distinct) h.shows, ?_, ?_, ?_, h.collect_ok⟩
  · intro hpending
    have hunderway := h.numbered.underway_eq_nil hpending
    have hawaiting : j.awaiting = [] :=
      List.eq_nil_iff_forall_not_mem.mpr fun item hitem => by
        have hmem := Journal.mem_underway_of_mem_awaiting hitem
        rw [hunderway] at hmem
        exact List.not_mem_nil hmem
    have hshows := h.shows
    rw [Journal.outcome, hawaiting, List.foldl_nil] at hshows
    exact mirroredBy_of_shows h.tidy h.sealed h.distinct hshows
  · intro hidle
    simp only [Journal.isIdle, Bool.and_eq_true, decide_eq_true_eq, List.isEmpty_iff] at hidle
    rw [← h.numbered.length_underway, Journal.underway, hidle.1, hidle.2]
    rfl
  · intro b htarget hreached
    simp only [Journal.reached, decide_eq_true_eq] at hreached
    unfold Journal.pending
    omega

/-- One replacement, brought to an empty backend step by step. -/
theorem durable_mirror_of_one_replacement : ∃ y : System,
    y = (start {} true {} .nobody {}).run [.openStream (.ofContent "text/plain" []),
      .ask ⟨0⟩ (.reconcile (.ofUri "/") (.replace 0 none)), .work .take, .work .apply, .work .file, .work .publish] ∧
    y.store.keys = [.ofUri "/"] ∧ y.MirroredBy y.backend.records := by
  rw [Key.ofUri_root]
  refine ⟨_, rfl, rfl, ?_⟩
  obtain ⟨j, hj, -, hpending, -⟩ := durable_mirror (.empty {} {} .nobody {} rfl rfl)
    [.openStream (.ofContent "text/plain" []), .ask ⟨0⟩ (.reconcile _ (.replace 0 none)), .work .take,
      .work .apply, .work .file, .work .publish] (by simp [Move.Ordinary]) rfl
  refine hpending ?_
  cases hj
  rfl

end ResponseCache.System
