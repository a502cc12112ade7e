import ResponseCache.Proofs.Backend
import ResponseCache.Proofs.Store.Restoring
import ResponseCache.Proofs.System
/-!
The backend mirrors the live entries. At any time, the records of the backend with the changes that wait made to them are the
records of the live entries; so when nothing waits any more, the backend holds just these.
-/
namespace ResponseCache

namespace Journal

/-- What the changes that wait will make of records. -/
def outcome (j : Journal) (records : Table Key Record) : Table Key Record :=
  j.awaiting.foldl (fun records item => item.change.applyTo records) records

theorem outcome_push (j : Journal) (now : Nat) (change : Change) (records : Table Key Record) :
    (j.push now change).outcome records = change.applyTo (j.outcome records) := by
  rw [outcome, awaiting_push, List.foldl_append]
  rfl

theorem outcome_eq {j j' : Journal} (h : j'.awaiting = j.awaiting) (records : Table Key Record) :
    j'.outcome records = j.outcome records := by
  rw [outcome, h, outcome]

/-- It is the same whether the first change that waits is made now or later. -/
theorem outcome_applied {j j' : Journal} (item : Queued) (h : j.awaiting = item :: j'.awaiting)
    (records : Table Key Record) : j'.outcome (item.change.applyTo records) = j.outcome records := by
  rw [outcome, outcome, h, List.foldl_cons]

theorem distinct_outcome (j : Journal) {records : Table Key Record} (h : records.Distinct) :
    (j.outcome records).Distinct := by
  have hfold (items : List Queued) : ∀ {records : Table Key Record}, records.Distinct →
      (items.foldl (fun records item => item.change.applyTo records) records).Distinct := by
    induction items with
    | nil => exact fun h => h
    | cons item rest ih => exact fun h => ih (Change.distinct_applyTo h item.change)
  exact hfold j.awaiting h

end Journal

/-- The record of the live entry of a key. -/
def Store.recordOf (s : Store) (streams : Streams) (key : Key) : Option Record :=
  (s.live? key).bind fun entry => (Record.ofEntry streams entry).toOption

theorem Store.recordOf_eq_some {s : Store} {streams : Streams} {key : Key} {entry : Entry} {record : Record}
    (hlive : s.live? key = some entry) (hr : Record.ofEntry streams entry = .ok record) :
    s.recordOf streams key = some record := by
  simp only [recordOf, hlive, hr, Option.bind_some, Except.toOption]

/-- The journal of a store and the backend together mirror the live entries, and nothing has failed. -/
structure Mirrors (streams : Streams) (backend : Backend) (s : Store) (j : Journal) : Prop where
  tidy : s.Tidy
  sealed : ∀ key entry, s.live? key = some entry → entry.Sealed streams
  willing : backend.failing = 0
  distinct : backend.records.Distinct
  numbered : j.Numbered
  kept : j.cancelled = false
  clean : j.failures = []
  unfailed : j.hand.unfiled? = none
  shows : ∀ key, (j.outcome backend.records).get? key = s.recordOf streams key

namespace Mirrors
variable {streams : Streams} {backend : Backend} {s s' : Store} {j : Journal}

/-- Only the live entries of a store matter. -/
theorem of_live (h : Mirrors streams backend s j) (htidy : s'.Tidy) (hlive : ∀ key, s'.live? key = s.live? key) :
    Mirrors streams backend s' j := by
  refine ⟨htidy, ?_, h.willing, h.distinct, h.numbered, h.kept, h.clean, h.unfailed, ?_⟩
  · intro key entry hentry
    exact h.sealed key entry (hlive key ▸ hentry)
  · intro key
    rw [h.shows key, Store.recordOf, Store.recordOf, hlive]

theorem of_slots (h : Mirrors streams backend s j) (hslots : s'.slots = s.slots) : Mirrors streams backend s' j :=
  h.of_live (h.tidy.of_slots hslots) fun key => by rw [Store.live?, Store.live?, hslots]

theorem of_keeps {streams' : Streams} (hk : streams.Keeps streams') (h : Mirrors streams backend s j) :
    Mirrors streams' backend s j := by
  refine ⟨h.tidy, ?_, h.willing, h.distinct, h.numbered, h.kept, h.clean, h.unfailed, ?_⟩
  · intro key entry hentry
    exact (h.sealed key entry hentry).of_keeps hk
  · intro key
    rw [h.shows key]
    cases hlive : s.live? key with
    | none => simp only [Store.recordOf, hlive, Option.bind_none]
    | some entry =>
      obtain ⟨record, hr⟩ := Record.exists_ofEntry (h.sealed key entry hlive)
      rw [Store.recordOf_eq_some hlive hr, Store.recordOf_eq_some hlive (Record.ofEntry_of_keeps hk hr)]

/-- The live entry of one key changes, and that is submitted. -/
theorem push (h : Mirrors streams backend s j) (now : Nat) {key : Key} {change : Change} {entry : Option Entry}
    (htidy : s'.Tidy) (hlive : ∀ key', s'.live? key' = if key = key' then entry else s.live? key')
    (hsealed : ∀ e, entry = some e → e.Sealed streams)
    (hchange : ∀ records key', (change.applyTo records).get? key' =
      if key = key' then entry.bind fun e => (Record.ofEntry streams e).toOption else records.get? key') :
    Mirrors streams backend s' (j.push now change) := by
  refine ⟨htidy, ?_, h.willing, h.distinct, h.numbered.push now change, h.kept, h.clean, h.unfailed, ?_⟩
  · intro key' e he
    rw [hlive] at he
    by_cases hk : key = key'
    · rw [if_pos hk] at he
      exact hsealed e he
    · rw [if_neg hk] at he
      exact h.sealed key' e he
  · intro key'
    rw [Journal.outcome_push, hchange, Store.recordOf, hlive]
    by_cases hk : key = key'
    · rw [if_pos hk, if_pos hk]
    · rw [if_neg hk, if_neg hk]
      exact h.shows key'

theorem decide (h : Mirrors streams backend s j) (hj : s.journal = some j) (now : Moment) (key : Key)
    (decide : Option Entry → Except Error Decision) :
    ∃ j', (s.reconcileWith streams now key decide).2.journal = some j' ∧
      Mirrors streams backend (s.reconcileWith streams now key decide).2 j' := by
  have hending := Store.ending streams now key decide h.tidy
  generalize s.reconcileWith streams now key decide = result at hending ⊢
  obtain ⟨answer, s'⟩ := result
  cases answer with
  | error e =>
    obtain ⟨mint, hsame⟩ := hending.error_eq
    simp only at hsame
    rw [hsame]
    exact ⟨j, hj, h.of_slots rfl⟩
  | ok r =>
    have hlive := hending.live?_ok
    rcases hending.journal_ok hj with ⟨-, hsame, hj'⟩ | ⟨-, record, hr, hj'⟩
    -- Nothing was submitted, and the live entry is the one from before.
    · refine ⟨j, hj', h.of_live (hending.tidy h.tidy) ?_⟩
      intro key'
      rw [hlive]
      by_cases hk : key = key'
      · rw [if_pos hk, ← hk, hsame]
      · rw [if_neg hk]
    · obtain ⟨hrkey, -, hsealed⟩ := Record.of_ofEntry hr
      have hnew : s'.live? key = some r.entry := (hlive key).trans (if_pos rfl)
      have hkey : record.key = key := hrkey.trans ((hending.tidy h.tidy).keyed key r.entry hnew)
      refine ⟨_, hj', h.push now.tick (hending.tidy h.tidy) hlive ?_ ?_⟩
      · intro e he
        exact Option.some.inj he ▸ hsealed
      · intro records key'
        rw [Change.applyTo, Table.get?_insert, hkey]
        simp only [hr, Option.bind_some, Except.toOption]

theorem evict (h : Mirrors streams backend s j) (hj : s.journal = some j) (now : Moment) (key : Key) :
    ∃ j', (s.evict now key).2.journal = some j' ∧ Mirrors streams backend (s.evict now key).2 j' := by
  have heviction := Store.eviction h.tidy now key
  generalize s.evict now key = result at heviction ⊢
  obtain ⟨answer, s'⟩ := result
  cases answer with
  | error e =>
    have hsame : s' = s := heviction.isOpen_of_error.2
    exact ⟨j, hsame ▸ hj, hsame ▸ h⟩
  | ok removed =>
    rcases heviction.journal_ok hj with hsame | hj'
    · simp only at hsame
      exact ⟨j, hsame ▸ hj, hsame ▸ h⟩
    · refine ⟨_, hj', h.push now.tick (heviction.tidy h.tidy) heviction.live?_ok (by simp) ?_⟩
      intro records key'
      rw [Change.applyTo, Table.get?_erase]
      rfl

/-- The writer goes on, and the changes that wait come to the same. -/
theorem of_outcome (h : Mirrors streams backend s j) {backend' : Backend} {j' : Journal}
    (hwilling : backend'.failing = 0) (hdistinct : backend'.records.Distinct) (hn : j'.Numbered)
    (hkept : j'.cancelled = false) (hclean : j'.failures = []) (hunfailed : j'.hand.unfiled? = none)
    (houtcome : j'.outcome backend'.records = j.outcome backend.records) : Mirrors streams backend' s j' := by
  refine ⟨h.tidy, h.sealed, hwilling, hdistinct, hn, hkept, hclean, hunfailed, ?_⟩
  intro key
  rw [houtcome]
  exact h.shows key

theorem work (h : Mirrors streams backend s j) {monitor : Monitor} {step : WriterStep} {p : Pipeline}
    (hstage : Pipeline.Stage ⟨j, backend, monitor⟩ step p) : Mirrors streams p.backend s p.journal := by
  have hn := hstage.numbered h.numbered
  cases hstage with
  | idle step haccepted hfailure => exact h
  | started item rest due hhand hqueue hkept =>
    simp only at hhand hqueue
    refine h.of_outcome h.willing h.distinct hn h.kept h.clean rfl (Journal.outcome_eq ?_ _)
    simp [Journal.awaiting, hhand, hqueue]
  | dropped item rest hhand hqueue hcancelled => exact absurd (hcancelled.symm.trans h.kept) (by simp)
  | applied item due answer backend' hhand happly =>
    -- The change goes over from what waits to the records, and the outcome is the same.
    simp only at hhand happly
    obtain ⟨answer', b', hmade, hrecords, hwilling⟩ := Backend.apply_of_failing_eq_zero h.willing item.change
    have hbackend : backend' = b' := congrArg Prod.snd (happly.symm.trans hmade)
    subst hbackend
    refine h.of_outcome hwilling ?_ hn h.kept h.clean rfl ?_
    · rw [hrecords]
      exact Change.distinct_applyTo h.distinct item.change
    · rw [hrecords]
      refine Journal.outcome_applied item ?_ backend.records
      simp [Journal.awaiting, hhand]
  | failed item due e backend' monitor' hhand happly =>
    obtain ⟨answer, b', hmade, -, -⟩ := Backend.apply_of_failing_eq_zero h.willing item.change
    exact absurd (happly.symm.trans hmade) (by simp)
  | filed item failure monitor' hhand =>
    simp only at hhand
    refine h.of_outcome h.willing h.distinct hn h.kept ?_ rfl (Journal.outcome_eq ?_ _)
    · simp only [h.clean, h.unfailed, Option.toList_none, List.append_nil]
    · simp [Journal.awaiting, hhand]
  | published item hhand =>
    simp only at hhand
    refine h.of_outcome h.willing h.distinct hn h.kept h.clean rfl (Journal.outcome_eq ?_ _)
    simp [Journal.awaiting, hhand]

theorem collect (h : Mirrors streams backend s j) (b : Barrier) : Mirrors streams backend s (j.collect b).2 := by
  refine h.of_outcome h.willing h.distinct (h.numbered.of_underway rfl rfl rfl) h.kept ?_ h.unfailed rfl
  simp only [Journal.collect, h.clean, List.filter_nil]

theorem close (h : Mirrors streams backend s j) : Mirrors streams backend s j.close :=
  h.of_outcome h.willing h.distinct (h.numbered.of_underway rfl rfl rfl) h.kept h.clean h.unfailed rfl

/-- A flush has no failure to report. -/
theorem collect_ok (h : Mirrors streams backend s j) (b : Barrier) : (j.collect b).1 = .ok () := by
  simp only [Journal.collect, h.clean, List.filter_nil]

end Mirrors

namespace System

/-- Nothing that happens in the ordinary course parts the backend from the live entries. -/
theorem kept_mirrors : Kept fun streams backend s => ∃ j, s.journal = some j ∧ Mirrors streams backend s j where
  alike := by
    rintro _ _ s _ ⟨monitor, rfl⟩ ⟨j, hj, h⟩
    exact ⟨j, hj, h.of_slots rfl⟩
  streams := fun hk ⟨j, hj, h⟩ => ⟨j, hj, h.of_keeps hk⟩
  decide := fun now key decide ⟨_, hj, h⟩ => h.decide hj now key decide
  evict := fun now key ⟨_, hj, h⟩ => h.evict hj now key
  work := by
    rintro _ _ s j p step hj hstage ⟨j', hj', h⟩
    have hsame : j' = j := Option.some.inj (hj'.symm.trans hj)
    exact ⟨p.journal, rfl, ((hsame ▸ h).work hstage).of_slots rfl⟩
  collect := by
    rintro _ _ s j b hj - ⟨j', hj', h⟩
    have hsame : j' = j := Option.some.inj (hj'.symm.trans hj)
    exact ⟨(j.collect b).2, rfl, ((hsame ▸ h).collect b).of_slots rfl⟩
  close := by
    rintro _ _ s j hj ⟨j', hj', h⟩
    have hsame : j' = j := Option.some.inj (hj'.symm.trans hj)
    exact ⟨j.close, rfl, (hsame ▸ h).close.of_slots rfl⟩

end System
end ResponseCache
