import ResponseCache.Proofs.Store.Call
import ResponseCache.Proofs.Store.Deed

namespace ResponseCache.Store

/-- What a call did: nothing if it failed. -/
def deeds (s : Store) (c : Call) : List Deed :=
  match (s.perform c).1 with
  | .error _ => []
  | .ok (.found _) => []
  | .ok (.reconciled r) =>
    match c.request.decide? with
    | some (key, decide) => Deed.ofAnswer key r (decide (s.live? key))
    | none => []
  | .ok (.removed _) =>
    match c.request with
    | .evict key => [.evicted key]
    | _ => []
  | .ok (.emptied _) => [.evictedAll]

/-- What a run of calls did, in order. -/
def history (s : Store) : List Call → List Deed
  | [] => []
  | c :: rest => s.deeds c ++ (s.perform c).2.history rest

section
variable {s s' : Store} {streams : Streams} {now : Moment} {key : Key}
  {decide : Option Entry → Except Error Decision} {r : Reconciliation}

/-- What a decision does to the entries is what its deed says. -/
theorem Ending.generation (h : Ending s streams now key decide (.ok r) s') (key' : Key) :
    (s'.live? key').map Entry.generation =
      (Deed.ofAnswer key r (decide (s.live? key))).foldl (Deed.remember key') ((s.live? key').map Entry.generation) := by
  have hlive := h.live?_ok key'
  by_cases hk : key = key'
  · subst hk
    rw [hlive, if_pos rfl]
    cases h with
    | stands decision entry hd hentry hstands =>
      rw [hd, hentry]
      cases hstands with
      | keep => rfl
      | attach a hsealed hsame => simp [Deed.ofAnswer, Deed.remember, Entry.generation, hsame]
      | clear hnone => simp [Deed.ofAnswer, Deed.remember, Entry.generation, hnone]
    | revised decision entry mint s' hd hrevision hship =>
      rw [hd]
      generalize s.live? key = current at hrevision
      cases hrevision with
      | attach old a hsealed hnew => simp [Deed.ofAnswer, Deed.remember, Entry.generation, Entry.withAlternative]
      | clear old hsome => simp [Deed.ofAnswer, Deed.remember, Entry.generation, Entry.withAlternative]
      | replace current primary alternative identity mint hprimary halternative hmint hnew =>
        simp [Deed.ofAnswer, Deed.remember, Entry.generation, Entry.fresh]
  · rw [hlive, if_neg hk]
    cases decide (s.live? key) with
    | error e => rfl
    | ok decision => cases decision <;> simp [Deed.ofAnswer, Deed.remember, hk]

/-- A replacement gives its key an identity that the key did not have. -/
theorem Ending.identity_ne (h : Ending s streams now key decide (.ok r) s') {entry : Entry}
    (hlive : s.live? key = some entry) {primary : StreamId} {alternative : Option Alternative}
    (hd : decide (s.live? key) = .ok (.replace primary alternative)) : r.entry.identity ≠ entry.identity := by
  obtain ⟨identity, -, hnew, hentry⟩ := h.replaced hd
  intro heq
  have hid : identity = entry.identity := by rw [← heq, hentry, Entry.fresh]
  rw [hlive, hid] at hnew
  exact hnew (UInt64.le_refl entry.identity.raw)

end

/-- What a call does to the entries is what its deeds say. -/
theorem generation_perform {s : Store} (hs : s.Tidy) (c : Call) (key : Key) :
    ((s.perform c).2.live? key).map Entry.generation =
      (s.deeds c).foldl (Deed.remember key) ((s.live? key).map Entry.generation) := by
  -- A decision has a deed only if it goes through; of the other requests only the evictions have one.
  cases hr : c.request.decide? with
  | some p =>
    obtain ⟨k, decide⟩ := p
    have hend := ending c.streams c.now k decide hs
    unfold deeds
    rw [perform_of_decide? hr, hr]
    generalize s.reconcileWith c.streams c.now k decide = result at hend ⊢
    obtain ⟨answer, s'⟩ := result
    cases answer with
    | error e => exact congrArg (Option.map Entry.generation) (hend.live?_error key)
    | ok r => exact hend.generation key
  | none =>
    obtain ⟨request, streams, now⟩ := c
    cases request with
    | lookup k =>
      obtain ⟨monitor, hm⟩ := s.lookup_snd k
      have hlive : (s.lookup k).2.live? key = s.live? key := by
        rw [hm]
        rfl
      exact congrArg (Option.map Entry.generation) hlive
    | evict k =>
      have hev := eviction hs now k
      simp only [perform, deeds]
      generalize s.evict now k = result at hev ⊢
      obtain ⟨answer, s'⟩ := result
      cases answer with
      | error e =>
        obtain ⟨-, rfl⟩ := hev.isOpen_of_error
        rfl
      | ok removed =>
        show (s'.live? key).map Entry.generation = _
        rw [hev.live?_ok key]
        by_cases hk : k = key <;> simp [Except.map, Deed.remember, hk]
    | evictAll =>
      simp only [perform, deeds]
      cases hall : (s.evictAll now).1 with
      | error e =>
        have hsame : (s.evictAll now).2 = s := (evictEach_error now s.keys 0 s hs hall).1
        rw [hsame]
        rfl
      | ok n =>
        rw [live?_evictAll hs hall key]
        rfl
    | reconcile k decision => simp [Request.decide?] at hr
    | reconcileWith k decide => simp [Request.decide?] at hr
    | attach k expected alternative => simp [Request.decide?] at hr
    | clear k => simp [Request.decide?] at hr

/-- What a run does to the entries is what its history says. -/
theorem generation_run (key : Key) (calls : List Call) : ∀ s : Store, s.Tidy →
    ((s.run calls).live? key).map Entry.generation =
      (s.history calls).foldl (Deed.remember key) ((s.live? key).map Entry.generation) := by
  induction calls with
  | nil => exact fun s hs => rfl
  | cons c rest ih =>
    intro s hs
    rw [history, List.foldl_append, ← generation_perform hs c key]
    exact ih (s.perform c).2 (s.tidy_perform c hs)

/-- The deed of a call is that of a decision which the store went along with, or an eviction. -/
theorem of_mem_deeds {s : Store} {c : Call} {d : Deed} (hd : d ∈ s.deeds c) :
    (∃ key decide r, c.request.decide? = some (key, decide) ∧
      (s.reconcileWith c.streams c.now key decide).1 = .ok r ∧
      s.deeds c = Deed.ofAnswer key r (decide (s.live? key))) ∨
    s.deeds c = [d] ∧ ((∃ key, d = .evicted key) ∨ d = .evictedAll) := by
  cases hr : c.request.decide? with
  | some p =>
    obtain ⟨key, decide⟩ := p
    refine .inl ⟨key, decide, ?_⟩
    unfold deeds at hd ⊢
    rw [perform_of_decide? hr, hr] at hd ⊢
    cases hanswer : (s.reconcileWith c.streams c.now key decide).1 with
    | error e =>
      rw [hanswer] at hd
      exact absurd hd List.not_mem_nil
    | ok r => exact ⟨r, rfl, rfl, rfl⟩
  | none =>
    unfold deeds at hd ⊢
    rw [hr] at hd ⊢
    -- Of the requests that decide nothing only the two evictions have a deed.
    refine .inr ?_
    split at hd
    · exact absurd hd List.not_mem_nil
    · exact absurd hd List.not_mem_nil
    · exact absurd hd List.not_mem_nil
    · split at hd
      · rw [List.mem_singleton.mp hd]
        exact ⟨rfl, .inl ⟨_, rfl⟩⟩
      · exact absurd hd List.not_mem_nil
    · rw [List.mem_singleton.mp hd]
      exact ⟨rfl, .inr rfl⟩

/-- A call that replaces a live entry gives the key another identity. -/
theorem identity_ne_of_replaces {s : Store} (hs : s.Tidy) {c : Call} {key : Key} {entry entry' : Entry} {d : Deed}
    (hd : d ∈ s.deeds c) (hreplaces : d.Replaces key) (hlive : s.live? key = some entry)
    (hlive' : (s.perform c).2.live? key = some entry') : entry'.identity ≠ entry.identity := by
  rcases of_mem_deeds hd with ⟨k, decide, r, hr, hanswer, hdeeds⟩ | ⟨-, ⟨k, rfl⟩ | rfl⟩
  · obtain ⟨rfl, primary, alternative, hdecided⟩ := Deed.of_mem_ofAnswer (hdeeds ▸ hd) hreplaces
    have hend := ending c.streams c.now k decide hs
    rw [hanswer] at hend
    rw [perform_of_decide? hr, hend.live?_ok k, if_pos rfl] at hlive'
    have hentry : r.entry = entry' := Option.some.inj hlive'
    exact hentry ▸ hend.identity_ne hlive hdecided
  · exact hreplaces.elim
  · exact hreplaces.elim

/-- Identities and histories. In every run of a store that starts empty, a key is live exactly when it was replaced and
not evicted since; it has the identity and the primary of the last replacement, and the alternative that was set last
since. A call under which a key stays live changes its identity exactly when it replaces the key, and every other call,
and each that fails, leaves identity and primary as they were. -/
theorem lookup_recalls_history (journal : Option Journal) (monitor : Monitor) (calls : List Call) (key : Key) :
    let start : Store := { journal, monitor }
    let s := start.run calls
    let past := start.history calls
    ((s.lookup key).1 = none ↔
      ∀ before d after, past = before ++ d :: after → d.Replaces key → ∃ d' ∈ after, d'.Evicts key) ∧
    (∀ entry, (s.lookup key).1 = some entry → ∃ before identity primary alternative after,
      past = before ++ .replaced key identity primary alternative :: after ∧
      (∀ d ∈ after, ¬d.Replaces key ∧ ¬d.Evicts key) ∧
      entry.identity = identity ∧ entry.primary = primary ∧
      entry.alternative = ((after.filterMap (·.alternative? key)).getLast?).getD alternative) ∧
    (∀ c entry entry', (s.lookup key).1 = some entry → ((s.perform c).2.lookup key).1 = some entry' →
      (entry'.identity ≠ entry.identity ↔ ∃ d ∈ s.deeds c, d.Replaces key) ∧
      ((∀ d ∈ s.deeds c, ¬d.Replaces key) → entry'.identity = entry.identity ∧ entry'.primary = entry.primary) ∧
      (∀ e, (s.perform c).1 = .error e → entry'.identity = entry.identity ∧ entry'.primary = entry.primary)) := by
  intro start s past
  have hstart : start.Tidy := Tidy.empty rfl
  have hs : s.Tidy := run_keeps tidy_perform calls start hstart
  have hrun : (s.live? key).map Entry.generation = past.foldl (Deed.remember key) none :=
    generation_run key calls start hstart
  simp only [lookup_fst]
  refine ⟨?_, ?_, ?_⟩
  · rw [← Deed.remember_eq_none_iff, ← hrun, Option.map_eq_none_iff]
  · intro entry hentry
    rw [hentry] at hrun
    obtain ⟨before, identity, primary, alternative, after, hpast, hafter, hg⟩ := Deed.leaves_of_remember key hrun.symm
    refine ⟨before, identity, primary, alternative, after, hpast, hafter, ?_, ?_, ?_⟩
    · exact congrArg Generation.identity hg
    · exact congrArg Generation.primary hg
    · exact congrArg Generation.alternative hg
  · intro c entry entry' hentry hentry'
    -- All that is not a replacement keeps identity and primary, so only a replacement can change the identity.
    have hsame (hno : ∀ d ∈ s.deeds c, ¬d.Replaces key) :
        entry'.identity = entry.identity ∧ entry'.primary = entry.primary := by
      have hstep := generation_perform hs c key
      rw [hentry, hentry'] at hstep
      obtain ⟨g, hg, hidentity, hprimary⟩ := Deed.remember_keeps key (s.deeds c) hno _ _ hstep.symm
      rw [Option.map_some, Option.some.injEq] at hg
      rw [← hg] at hidentity hprimary
      exact ⟨hidentity, hprimary⟩
    refine ⟨⟨?_, ?_⟩, hsame, ?_⟩
    · intro hne
      by_contra hno
      exact hne (hsame fun d hd hreplaces => hno ⟨d, hd, hreplaces⟩).1
    · rintro ⟨d, hd, hreplaces⟩
      exact identity_ne_of_replaces hs hd hreplaces hentry hentry'
    · intro e he
      refine hsame ?_
      intro d hd
      simp [deeds, he] at hd

end ResponseCache.Store
