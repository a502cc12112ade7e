import ResponseCache.Proofs.Mint
import ResponseCache.Proofs.Sealed
import ResponseCache.Proofs.Store.Slots

namespace ResponseCache.Store

/-- How one record is taken in. -/
inductive Restoring (s : Store) (now : Moment) (record : Record) (streams : Streams) : Bool → Streams → Store → Prop
  | skipped (habsent : record.identity.isAbsent = true) :
      Restoring s now record streams false streams
        { s with monitor := s.monitor.note (.recordSkipped record.key.display) }
  | passed (entry : Entry) (hpresent : record.identity.isAbsent = false) (hlive : s.live? record.key = some entry) :
      Restoring s now record streams false (record.toEntry streams now.date).2
        { s with mint := s.mint.advancePast record.identity }
  | installed (hpresent : record.identity.isAbsent = false) (hlive : s.live? record.key = none) :
      Restoring s now record streams true (record.toEntry streams now.date).2
        ({ s with mint := s.mint.advancePast record.identity }.install record.key
          (record.toEntry streams now.date).1 true)

variable (now : Moment) (record : Record) (streams : Streams) (s : Store)

theorem restoring : Restoring s now record streams (restoreOne now record streams s).1
    (restoreOne now record streams s).2.1 (restoreOne now record streams s).2.2 := by
  simp only [restoreOne]
  cases habsent : record.identity.isAbsent with
  | true => exact .skipped habsent
  | false =>
    cases hlive : s.live? record.key with
    | none =>
      have hnone : live? { s with mint := s.mint.advancePast record.identity } record.key = none := hlive
      simp only [hnone]
      exact .installed habsent hlive
    | some entry =>
      have hsome : live? { s with mint := s.mint.advancePast record.identity } record.key = some entry := hlive
      simp only [hsome]
      exact .passed entry habsent hlive

variable {now record streams s} {isNew : Bool} {streams' : Streams} {s' : Store}

theorem Restoring.keeps (h : Restoring s now record streams isNew streams' s') : streams.Keeps streams' := by
  cases h with
  | skipped habsent => exact .refl streams
  | passed entry hpresent hlive => exact record.keeps_toEntry streams now.date
  | installed hpresent hlive => exact record.keeps_toEntry streams now.date

/-- The key of a record becomes live if it was not, and nothing else changes. -/
theorem Restoring.live? (h : Restoring s now record streams isNew streams' s') (key : Key) :
    s'.live? key = if isNew = true ∧ record.key = key then some (record.toEntry streams now.date).1
      else s.live? key := by
  cases h with
  | skipped habsent => simp [Store.live?]
  | passed entry hpresent hlive => simp [Store.live?]
  | installed hpresent hlive =>
    simp only [Store.live?, install, setCount, if_true, Table.get?_insert, true_and]
    by_cases hk : record.key = key
    · rw [if_pos hk, if_pos hk]
      rfl
    · rw [if_neg hk, if_neg hk]

theorem Restoring.tidy (h : Restoring s now record streams isNew streams' s') (hs : s.Tidy) : s'.Tidy := by
  cases h with
  | skipped habsent => exact hs.of_slots rfl
  | passed entry hpresent hlive => exact hs.of_slots rfl
  | installed hpresent hlive =>
    have hkey : (record.toEntry streams now.date).1.key = record.key :=
      (Record.of_ofEntry (record.ofEntry_toEntry streams now.date)).1.symm
    exact hs.insert hkey rfl

theorem Restoring.journal_eq (h : Restoring s now record streams isNew streams' s') : s'.journal = s.journal := by
  cases h <;> rfl

end ResponseCache.Store
