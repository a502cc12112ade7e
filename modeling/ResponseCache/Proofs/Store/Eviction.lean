import ResponseCache.Proofs.Store.Resolution
import ResponseCache.Proofs.Store.Slots
/-!
How evictions end. An eviction is refused only by a journal that takes nothing more in, so of several evictions in a row
the first is refused or none is.
-/
namespace ResponseCache.Store

theorem Submission.slots_eq {s s' : Store} {now : Moment} {change : Change}
    (h : Submission s now change (.ok s')) : s'.slots = s.slots := by
  cases h <;> rfl

/-- The journal of a store, if it has one, takes changes in. -/
def IsOpen (s : Store) : Prop := ∀ j, s.journal = some j → j.accepting = true

theorem Submission.isOpen {s s' : Store} {now : Moment} {change : Change} (h : Submission s now change (.ok s')) :
    s'.IsOpen := by
  intro j hj
  cases h with
  | unkept hnone => exact absurd (hnone.symm.trans hj) (by simp)
  | taken j' notices hj' hopen =>
    simp only [Option.some.injEq] at hj
    rw [← hj]
    exact hopen

theorem Submission.not_isOpen {s : Store} {now : Moment} {change : Change} {e : Error}
    (h : Submission s now change (.error e)) : ¬s.IsOpen := by
  cases h with
  | refused j hj hclosed =>
    intro hopen
    exact absurd (hclosed.symm.trans (hopen j hj)) (by simp)

/-- The store without the live entry of a key. -/
def evicted (s : Store) (key : Key) : Store :=
  { s with
    slots := s.slots.erase key
    count := s.count - 1
    monitor := (s.monitor.count (·.setEntries (s.count - 1))).count (·.countEviction) }

theorem live?_evicted (s : Store) (key key' : Key) :
    (s.evicted key).live? key' = if key = key' then none else s.live? key' := by
  unfold live?
  rw [evicted, Table.get?_erase]
  by_cases hk : key = key'
  · rw [if_pos hk, if_pos hk]
    rfl
  · rw [if_neg hk, if_neg hk]

/-- How an eviction ends. -/
inductive Eviction (s : Store) (now : Moment) (key : Key) : Except Error (Option Identity) → Store → Prop
  | nothing (hlive : s.live? key = none) : Eviction s now key (.ok none) s
  | refused (entry : Entry) (e : Error) (hlive : s.live? key = some entry)
      (hs : Submission s now (.remove key) (.error e)) : Eviction s now key (.error e) s
  | removed (entry : Entry) (s' : Store) (hlive : s.live? key = some entry)
      (hs : Submission s now (.remove key) (.ok s')) :
      Eviction s now key (.ok (some entry.identity)) (s'.evicted key)

theorem eviction {s : Store} (hs : s.Tidy) (now : Moment) (key : Key) :
    Eviction s now key (s.evict now key).1 (s.evict now key).2 := by
  unfold evict
  cases hget : s.slots.get? key with
  | none => exact .nothing ((hs.live?_eq_none_iff key).mpr hget)
  | some slot =>
    cases slot with
    | none => exact absurd hget (hs.occupied key)
    | some entry =>
      have hlive : s.live? key = some entry := (s.live?_eq_some_iff key entry).mpr hget
      have hsub := s.submission now (.remove key)
      simp only
      cases hsubmit : s.submit now (.remove key) with
      | error e => exact .refused entry e hlive (hsubmit ▸ hsub)
      | ok s' =>
        -- The slot is vacated before it is taken back, which comes to erasing the key.
        have hvacant (t : Store) (ht : t.slots = s'.slots.insert key none) :
            t.releaseSlot key = { t with slots := s'.slots.erase key } := by
          have hnone : t.slots.get? key = some none := by rw [ht, Table.get?_insert, if_pos rfl]
          rw [releaseSlot, if_pos hnone, ht, Table.erase_insert]
        simp only
        rw [hvacant _ (by rfl)]
        exact .removed entry s' hlive (hsubmit ▸ hsub)

theorem Eviction.live?_ok {s s' : Store} {now : Moment} {key : Key} {removed : Option Identity}
    (h : Eviction s now key (.ok removed) s') (key' : Key) :
    s'.live? key' = if key = key' then none else s.live? key' := by
  cases h with
  | nothing hlive =>
    by_cases hk : key = key'
    · rw [if_pos hk, ← hk, hlive]
    · rw [if_neg hk]
  | removed entry s' hlive hs =>
    have hslots : s'.live? key' = s.live? key' := by rw [live?, live?, hs.slots_eq]
    rw [live?_evicted, hslots]

/-- An eviction submits the removal of its key, unless there was nothing to evict. -/
theorem Eviction.journal_ok {s s' : Store} {now : Moment} {key : Key} {removed : Option Identity} {j : Journal}
    (hj : s.journal = some j) (h : Eviction s now key (.ok removed) s') :
    s' = s ∨ s'.journal = some (j.push now.tick (.remove key)) := by
  cases h with
  | nothing hlive => exact .inl rfl
  | removed entry s' hlive hsub =>
    cases hsub with
    | unkept hnone => exact absurd (hj.symm.trans hnone) (by simp)
    | taken j' notices hj' hopen =>
      have hsame : j' = j := Option.some.inj (hj'.symm.trans hj)
      subst hsame
      exact .inr rfl

theorem Eviction.tidy {s s' : Store} {now : Moment} {key : Key} {answer : Except Error (Option Identity)}
    (hs : s.Tidy) (h : Eviction s now key answer s') : s'.Tidy := by
  cases h with
  | nothing hlive => exact hs
  | refused entry e hlive hsub => exact hs
  | removed entry s' hlive hsub => exact hs.erase (congrArg (Table.erase · key) hsub.slots_eq)

theorem Eviction.isOpen_of_error {s s' : Store} {now : Moment} {key : Key} {e : Error}
    (h : Eviction s now key (.error e) s') : ¬s.IsOpen ∧ s' = s := by
  cases h with
  | refused entry e hlive hs => exact ⟨hs.not_isOpen, rfl⟩

theorem Eviction.isOpen {s s' : Store} {now : Moment} {key : Key} {removed : Option Identity}
    (h : Eviction s now key (.ok removed) s') : s' = s ∨ s'.IsOpen := by
  cases h with
  | nothing hlive => exact .inl rfl
  | removed entry s' hlive hs => exact .inr hs.isOpen

/-- What every eviction keeps, several in a row keep. -/
theorem evictEach_keeps {P : Store → Prop} {now : Moment} (hP : ∀ s key, P s → P (s.evict now key).2) (keys : List Key) :
    ∀ (n : Nat) (s : Store), P s → P (evictEach now keys n s).2 := by
  induction keys with
  | nil => exact fun n s h => h
  | cons key rest ih =>
    intro n s h
    have hnext := hP s key h
    unfold evictEach
    generalize s.evict now key = result at hnext ⊢
    obtain ⟨answer, s'⟩ := result
    cases answer with
    | error e => exact hnext
    | ok removed => exact ih _ s' hnext

/-- Evictions that all end well leave none of their keys live, and touch no other. -/
theorem live?_evictEach {now : Moment} (keys : List Key) : ∀ (n : Nat) (s : Store), s.Tidy →
    ∀ m, (evictEach now keys n s).1 = .ok m →
    ∀ key, (evictEach now keys n s).2.live? key = if key ∈ keys then none else s.live? key := by
  induction keys with
  | nil => simp [evictEach]
  | cons key rest ih =>
    intro n s hs m hm key'
    have hev := eviction hs now key
    unfold evictEach at hm ⊢
    generalize s.evict now key = result at hev hm ⊢
    obtain ⟨answer, s'⟩ := result
    cases answer with
    | error e => simp at hm
    | ok removed =>
      simp only at hev hm ⊢
      rw [ih _ s' (hev.tidy hs) m hm key', hev.live?_ok key']
      by_cases hk : key = key'
      · simp [hk]
      · have hk' : ¬key' = key := fun h => hk h.symm
        simp only [List.mem_cons, hk, hk', if_false, false_or]

/-- Of several evictions the first is refused or none is, so a refusal leaves the store as it was. -/
theorem evictEach_error (now : Moment) (keys : List Key) : ∀ (n : Nat) (s : Store), s.Tidy → ∀ {e : Error},
    (evictEach now keys n s).1 = .error e → (evictEach now keys n s).2 = s ∧ ¬s.IsOpen := by
  induction keys with
  | nil => simp [evictEach]
  | cons key rest ih =>
    intro n s hs e he
    have hev := eviction hs now key
    unfold evictEach at he ⊢
    generalize s.evict now key = result at hev he ⊢
    obtain ⟨answer, s'⟩ := result
    cases answer with
    | error e' => exact ⟨hev.isOpen_of_error.2, hev.isOpen_of_error.1⟩
    | ok removed =>
      simp only at hev he ⊢
      -- An eviction that was submitted shows that the journal is open, and then no later one is refused.
      obtain ⟨hsame, hclosed⟩ := ih _ s' (hev.tidy hs) he
      rcases hev.isOpen with rfl | hopen
      · exact ⟨hsame, hclosed⟩
      · exact absurd hopen hclosed

/-- The keys of a store are those with a live entry. -/
theorem mem_keys_iff {s : Store} (hs : s.Tidy) (key : Key) : key ∈ s.keys ↔ ∃ entry, s.live? key = some entry := by
  unfold keys
  rw [List.mem_filterMap]
  constructor
  · rintro ⟨⟨k, slot⟩, hrow, hk⟩
    cases slot with
    | none => simp at hk
    | some entry =>
      simp only [Option.map_some, Option.some.injEq] at hk
      refine ⟨entry, (s.live?_eq_some_iff key entry).mpr ?_⟩
      rw [← hk]
      exact (Table.get?_eq_some_iff s.slots hs.distinct k (some entry)).mpr hrow
  · rintro ⟨entry, hentry⟩
    have hget := (s.live?_eq_some_iff key entry).mp hentry
    exact ⟨(key, some entry), (Table.get?_eq_some_iff s.slots hs.distinct key (some entry)).mp hget, rfl⟩

theorem nodup_keys {s : Store} (hs : s.Tidy) : s.keys.Nodup := by
  have hsub (rows : List (Key × Option Entry)) :
      (rows.filterMap fun row => row.2.map fun _ => row.1).Sublist (rows.map (·.1)) := by
    induction rows with
    | nil => exact .slnil
    | cons row rest ih =>
      obtain ⟨key, entry⟩ := row
      cases entry with
      | none => exact ih.cons key
      | some entry => exact ih.cons_cons key
  exact (hsub s.slots.rows).nodup hs.distinct

/-- Evicting everything, when it ends well, leaves nothing live. -/
theorem live?_evictAll {s : Store} (hs : s.Tidy) {now : Moment} {n : Nat} (h : (s.evictAll now).1 = .ok n) (key : Key) :
    (s.evictAll now).2.live? key = none := by
  unfold evictAll at h ⊢
  rw [live?_evictEach s.keys 0 s hs n h key]
  by_cases hk : key ∈ s.keys
  · rw [if_pos hk]
  · rw [if_neg hk]
    cases hlive : s.live? key with
    | none => rfl
    | some entry => exact absurd ((mem_keys_iff hs key).mpr ⟨entry, hlive⟩) hk

end ResponseCache.Store
