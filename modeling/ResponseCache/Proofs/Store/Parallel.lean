import ResponseCache.Proofs.Store.Verdict

namespace ResponseCache

/-- The entry with the times left out. -/
def Entry.untimed (e : Entry) : Entry := { e with createdAt := Moment.date ⟨0⟩, updatedAt := Moment.date ⟨0⟩ }

def Reconciliation.untimed (r : Reconciliation) : Reconciliation := { r with entry := r.entry.untimed }

theorem identityOf_map_untimed (current : Option Entry) : identityOf (current.map Entry.untimed) = identityOf current := by
  cases current <;> rfl

theorem identityOf_eq_of_map_untimed {current current' : Option Entry}
    (h : current.map Entry.untimed = current'.map Entry.untimed) : identityOf current = identityOf current' := by
  rw [← identityOf_map_untimed current, h, identityOf_map_untimed]

theorem isSome_eq_of_map_untimed {current current' : Option Entry}
    (h : current.map Entry.untimed = current'.map Entry.untimed) : current.isSome = current'.isSome := by
  rw [← Option.isSome_map (f := Entry.untimed), h, Option.isSome_map]

/-- Two answers that agree under a map are the same error, or both go well. -/
theorem map_eq_map_cases {α β : Type} {f : α → β} {answer answer' : Except Error α} (h : answer.map f = answer'.map f) :
    (∃ e, answer = .error e ∧ answer' = .error e) ∨ ∃ a a', answer = .ok a ∧ answer' = .ok a' ∧ f a = f a' := by
  cases answer with
  | error e =>
    cases answer' with
    | error e' => exact .inl ⟨e, rfl, congrArg Except.error (Except.error.inj h).symm⟩
    | ok a' => exact absurd h (by simp [Except.map])
  | ok a =>
    cases answer' with
    | error e' => exact absurd h (by simp [Except.map])
    | ok a' => exact .inr ⟨a, a', rfl, rfl, Except.ok.inj h⟩

/-- The decision does not look at times. -/
def Timeless (decide : Option Entry → Except Error Decision) : Prop :=
  ∀ current : Option Entry, decide (current.map Entry.untimed) = decide current

theorem timeless_decide (key : Key) (outcome : Outcome) (intent : Intent) :
    Timeless fun current => Decision.decide key current outcome intent := by
  intro current
  cases current <;> cases outcome <;> rfl

/-- The counters that persistence has no part in. -/
def Counters.steady (c : Counters) : Counters :=
  { c with persistedOps := 0, persistenceFailures := 0, flushes := 0, flushLatency := 0 }

/-- The counting has no regard to persistence. -/
def Steady (f : Counters → Counters) : Prop := ∀ c, (f c).steady = f c.steady

theorem steady_countDecision (kind : Decision.Kind) : Steady (·.countDecision kind) := by
  intro c
  cases kind <;> rfl

namespace Store
variable {s s' t t' : Store} {streams : Streams} {now now' : Moment} {key : Key}
  {decide : Option Entry → Except Error Decision}

theorem resolve_untimed (streams : Streams) (now : Moment) (key : Key) (current : Option Entry) (mint : Mint)
    (decision : Decision) :
    resolve streams ⟨0⟩ key (current.map Entry.untimed) mint decision =
      ((resolve streams now key current mint decision).1.map fun (entry, changed) => (entry.untimed, changed),
        (resolve streams now key current mint decision).2) := by
  -- Nothing that is decided on depends on when an entry was changed.
  cases decision with
  | keep => cases current <;> rfl
  | clear =>
    cases current with
    | none => rfl
    | some entry =>
      simp only [resolve, Option.map_some, require, bind, Except.bind, pure, Except.pure]
      by_cases hnone : entry.alternative = none
      · rw [if_pos hnone, if_pos (show entry.untimed.alternative = none from hnone)]
        rfl
      · rw [if_neg hnone, if_neg (show ¬entry.untimed.alternative = none from hnone)]
        rfl
  | attach a =>
    simp only [resolve]
    cases streams.ensureSealed a.stream with
    | error e => rfl
    | ok _ =>
      cases current with
      | none => rfl
      | some entry =>
        simp only [Option.map_some, require, bind, Except.bind, pure, Except.pure]
        by_cases hsame : entry.alternative = some a
        · rw [if_pos hsame, if_pos (show entry.untimed.alternative = some a from hsame)]
          rfl
        · rw [if_neg hsame, if_neg (show ¬entry.untimed.alternative = some a from hsame)]
          rfl
  | replace primary alternative =>
    simp only [resolve, identityOf_map_untimed]
    split
    · rfl
    · split
      · rfl
      · split <;> rfl

theorem verdict_untimed (hd : Timeless decide) (streams : Streams) (now : Moment) (key : Key) (current : Option Entry)
    (mint : Mint) : verdict streams ⟨0⟩ key (current.map Entry.untimed) mint decide =
      ((verdict streams now key current mint decide).1.map Reconciliation.untimed,
        (verdict streams now key current mint decide).2) := by
  cases hdecided : decide current with
  | error e => rw [verdict_of_undecided hdecided, verdict_of_undecided ((hd current).trans hdecided), Except.map]
  | ok decision =>
    rw [verdict_of_decided hdecided, verdict_of_decided ((hd current).trans hdecided),
      resolve_untimed streams now key current mint decision, identityOf_map_untimed]
    cases (resolve streams now key current mint decision).1 <;> rfl

/-- What a decision that goes well counts, with the number of live entries before. -/
def countRevision (c : Counters) (count : Nat) (r : Reconciliation) : Counters :=
  (if r.changed && r.previous.isAbsent then c.setEntries (count + 1) else c).countDecision r.kind

theorem steady_countRevision (count : Nat) (r : Reconciliation) : Steady (countRevision · count r) := by
  intro c
  unfold countRevision
  split <;> exact steady_countDecision r.kind _

theorem Ending.counters_error {e : Error} (h : Ending s streams now key decide (.error e) s') :
    s'.monitor.counters = s.monitor.counters := by
  obtain ⟨mint, rfl⟩ := h.error_eq
  rfl

theorem Ending.counters_ok {r : Reconciliation} (h : Ending s streams now key decide (.ok r) s') :
    s'.monitor.counters = countRevision s.monitor.counters s.count r := by
  cases h with
  | stands decision entry hd hlive h => rfl
  | revised decision entry mint s' hd h hship =>
    have hcount : s'.count = s.count ∧ s'.monitor.counters = s.monitor.counters := by cases hship <;> exact ⟨rfl, rfl⟩
    unfold countRevision applied install
    rw [← hcount.1, ← hcount.2]
    simp only [Bool.true_and]
    split <;> rfl

/-- An eviction that finds an entry counts that, and shows that there is one entry fewer. -/
theorem Eviction.counters_ok {removed : Option Identity} (h : Eviction s now key (.ok removed) s') :
    s'.monitor.counters = if removed.isSome then (s.monitor.counters.setEntries (s.count - 1)).countEviction
      else s.monitor.counters := by
  cases h with
  | nothing hlive => rfl
  | removed entry s' hlive hsub => cases hsub <;> rfl

theorem Eviction.mint_eq {answer : Except Error (Option Identity)} (h : Eviction s now key answer s') :
    s'.mint = s.mint := by
  cases h with
  | nothing | refused => rfl
  | removed entry s' hlive hsub => cases hsub <;> rfl

/-- Two stores with sound entries take changes in, and agree in everything but the times of their entries, their journals,
what is counted about these, and what was noted. -/
structure Parallel (streams : Streams) (s t : Store) : Prop where
  living : s.Living streams
  living' : t.Living streams
  isOpen : s.IsOpen
  isOpen' : t.IsOpen
  live : ∀ key, (s.live? key).map Entry.untimed = (t.live? key).map Entry.untimed
  mint : s.mint = t.mint
  counters : s.monitor.counters.steady = t.monitor.counters.steady

namespace Parallel

theorem symm (h : s.Parallel streams t) : t.Parallel streams s :=
  ⟨h.living', h.living, h.isOpen', h.isOpen, fun key => (h.live key).symm, h.mint.symm, h.counters.symm⟩

theorem trans {u : Store} (h : s.Parallel streams t) (h' : t.Parallel streams u) : s.Parallel streams u :=
  ⟨h.living, h'.living', h.isOpen, h'.isOpen', fun key => (h.live key).trans (h'.live key), h.mint.trans h'.mint,
    h.counters.trans h'.counters⟩

theorem keys (h : s.Parallel streams t) : s.keys.Perm t.keys := by
  rw [List.perm_ext_iff_of_nodup (nodup_keys h.living.sound.tidy) (nodup_keys h.living'.sound.tidy)]
  intro key
  rw [mem_keys_iff h.living.sound.tidy, mem_keys_iff h.living'.sound.tidy, ← Option.isSome_iff_exists,
    ← Option.isSome_iff_exists, isSome_eq_of_map_untimed (h.live key)]

theorem count (h : s.Parallel streams t) : s.count = t.count := by
  rw [h.living.counted, h.living'.counted, h.keys.length_eq]

/-- Another monitor that counts the same makes no difference. -/
theorem of_alike (h : s.Parallel streams t) (hs : ∃ monitor, s' = { s with monitor }) (ht : ∃ monitor, t' = { t with monitor })
    (hcounters : s'.monitor.counters.steady = t'.monitor.counters.steady) : s'.Parallel streams t' := by
  obtain ⟨monitor, rfl⟩ := hs
  obtain ⟨monitor', rfl⟩ := ht
  exact ⟨h.living.of_eq rfl (h.living.sound.of_eq rfl rfl) rfl, h.living'.of_eq rfl (h.living'.sound.of_eq rfl rfl) rfl,
    h.isOpen, h.isOpen', h.live, h.mint, hcounters⟩

/-- What becomes of the journal behind an open store makes no difference, as long as it stays open. -/
theorem of_journal (h : s.Parallel streams t) {journal : Option Journal} {monitor : Monitor}
    (hopen : ∀ j, journal = some j → j.accepting = true)
    (hcounters : monitor.counters.steady = s.monitor.counters.steady) :
    ({ s with journal, monitor } : Store).Parallel streams t :=
  ⟨h.living.of_eq rfl (h.living.sound.of_eq rfl rfl) rfl, h.living', hopen, h.isOpen', h.live, h.mint,
    hcounters.trans h.counters⟩

theorem of_keeps {streams' : Streams} (h : s.Parallel streams t) (hk : streams.Keeps streams') : s.Parallel streams' t :=
  ⟨h.living.of_keeps hk, h.living'.of_keeps hk, h.isOpen, h.isOpen', h.live, h.mint, h.counters⟩

theorem lookup (h : s.Parallel streams t) (key : Key) :
    (s.lookup key).1.map Entry.untimed = (t.lookup key).1.map Entry.untimed ∧
      (s.lookup key).2.Parallel streams (t.lookup key).2 := by
  have hlive := h.live key
  rw [lookup_fst, lookup_fst]
  refine ⟨hlive, h.of_alike (s.lookup_snd key) (t.lookup_snd key) ?_⟩
  unfold Store.lookup
  cases hs : s.live? key <;> cases ht : t.live? key <;> simp only [hs, ht, Option.map_none, Option.map_some] at hlive
  · exact congrArg Counters.countMiss h.counters
  · exact absurd hlive (by simp)
  · exact absurd hlive (by simp)
  · exact congrArg Counters.countHit h.counters

/-- Decisions that come to the same leave parallel stores behind. -/
theorem ending (h : s.Parallel streams t) {decide' : Option Entry → Except Error Decision}
    {answer answer' : Except Error Reconciliation} (hend : Ending s streams now key decide answer s')
    (hend' : Ending t streams now' key decide' answer' t')
    (hsame : answer.map Reconciliation.untimed = answer'.map Reconciliation.untimed) (hmint : s'.mint = t'.mint) :
    s'.Parallel streams t' := by
  have hliving := hend.living h.living
  have hliving' := hend'.living h.living'
  have hopen := hend.fed.isOpen h.isOpen
  have hopen' := hend'.fed.isOpen h.isOpen'
  rcases map_eq_map_cases hsame with ⟨e, rfl, rfl⟩ | ⟨r, r', rfl, rfl, hr⟩
  · refine ⟨hliving, hliving', hopen, hopen', fun k => ?_, hmint, ?_⟩
    · rw [hend.live?_error, hend'.live?_error, h.live]
    · rw [hend.counters_error, hend'.counters_error, h.counters]
  · have hentry : r.entry.untimed = r'.entry.untimed := congrArg Reconciliation.entry hr
    have hcount (c : Counters) (n : Nat) : countRevision c n r = countRevision c n r' := by
      show countRevision c n r.untimed = countRevision c n r'.untimed
      rw [hr]
    refine ⟨hliving, hliving', hopen, hopen', fun k => ?_, hmint, ?_⟩
    · rw [hend.live?_ok, hend'.live?_ok]
      by_cases hk : key = k
      · rw [if_pos hk, if_pos hk, Option.map_some, Option.map_some, hentry]
      · rw [if_neg hk, if_neg hk, h.live]
    · rw [hend.counters_ok, hend'.counters_ok, steady_countRevision, steady_countRevision, h.counters, h.count]
      exact hcount _ _

/-- A decision that does not look at times comes to the same in both stores. -/
theorem reconcileWith (h : s.Parallel streams t) (now now' : Moment) (key : Key) (hd : Timeless decide) :
    (s.reconcileWith streams now key decide).1.map Reconciliation.untimed =
        (t.reconcileWith streams now' key decide).1.map Reconciliation.untimed ∧
      (s.reconcileWith streams now key decide).2.Parallel streams (t.reconcileWith streams now' key decide).2 := by
  obtain ⟨hanswer, hmint⟩ := h.living.reconcileWith_eq now key decide
  obtain ⟨hanswer', hmint'⟩ := h.living'.reconcileWith_eq now' key decide
  rw [if_pos h.isOpen] at hanswer
  rw [if_pos h.isOpen'] at hanswer'
  -- Without times both verdicts are one.
  have hverdict := verdict_untimed hd streams now key (s.live? key) s.mint
  have hverdict' := verdict_untimed hd streams now' key (t.live? key) t.mint
  rw [h.live key, h.mint, hverdict', Prod.mk.injEq, ← hanswer', ← hmint', ← h.mint, ← hanswer, ← hmint] at hverdict
  obtain ⟨hsame, hmints⟩ := hverdict
  exact ⟨hsame.symm, h.ending (Store.ending streams now key decide h.living.sound.tidy)
    (Store.ending streams now' key decide h.living'.sound.tidy) hsame.symm hmints.symm⟩

theorem attach (h : s.Parallel streams t) (now now' : Moment) (key : Key) (expected : Identity) (a : Alternative) :
    (s.attach streams now key expected a).1.map Reconciliation.untimed =
        (t.attach streams now' key expected a).1.map Reconciliation.untimed ∧
      (s.attach streams now key expected a).2.Parallel streams (t.attach streams now' key expected a).2 := by
  refine h.reconcileWith now now' key ?_
  intro current
  simp only [identityOf_map_untimed]

theorem clear (h : s.Parallel streams t) (now now' : Moment) (key : Key) :
    (s.clear streams now key).1.map Reconciliation.untimed = (t.clear streams now' key).1.map Reconciliation.untimed ∧
      (s.clear streams now key).2.Parallel streams (t.clear streams now' key).2 :=
  h.reconcileWith now now' key fun _ => rfl

theorem evict (h : s.Parallel streams t) (now now' : Moment) (key : Key) :
    (s.evict now key).1 = (t.evict now' key).1 ∧ (s.evict now key).2.Parallel streams (t.evict now' key).2 := by
  have hanswer := evict_fst_of_isOpen h.living.sound.tidy h.isOpen now key
  have hanswer' := evict_fst_of_isOpen h.living'.sound.tidy h.isOpen' now' key
  have hev := eviction h.living.sound.tidy now key
  have hev' := eviction h.living'.sound.tidy now' key
  have hidentity : (s.live? key).map Entry.identity = (t.live? key).map Entry.identity := by
    have hlive := congrArg (Option.map Entry.identity) (h.live key)
    rwa [Option.map_map, Option.map_map] at hlive
  rw [hanswer] at hev ⊢
  rw [hanswer', ← hidentity] at hev' ⊢
  refine ⟨rfl, hev.living h.living, hev'.living h.living', hev.fed.isOpen h.isOpen,
    hev'.fed.isOpen h.isOpen', fun k => ?_, ?_, ?_⟩
  · rw [hev.live?_ok, hev'.live?_ok]
    by_cases hk : key = k
    · rw [if_pos hk, if_pos hk]
    · rw [if_neg hk, if_neg hk, h.live]
  · rw [hev.mint_eq, hev'.mint_eq, h.mint]
  · rw [hev.counters_ok, hev'.counters_ok, h.count]
    split
    · exact congrArg (fun c : Counters => (c.setEntries (t.count - 1)).countEviction) h.counters
    · exact h.counters

end Parallel
end Store
end ResponseCache
