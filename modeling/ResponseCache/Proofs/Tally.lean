import ResponseCache.Proofs.Transparent
import ResponseCache.Proofs.Truthful

namespace ResponseCache

/-- What happens, as far as it is counted. -/
inductive Fact
  /-- A key was looked up without asking the origin. -/
  | lookedUp
  /-- A fetch began. -/
  | started
  /-- A fetch ended like this, after the origin had confirmed the copy or had not. -/
  | fetched (confirmed : Bool) (result : Except Error Response)
  /-- A decision went well, whoever made it. -/
  | decided (r : Reconciliation)
  /-- An eviction removed an entry. -/
  | evicted
  /-- A record was taken in and became a live entry. -/
  | installed

namespace Fact

def creates : Fact → Bool
  | decided r => r.created
  | _ => false

def installs : Fact → Bool
  | installed => true
  | _ => false

/-- A decision that was refused is no fact. -/
def ofDecision : Except Error Reconciliation → List Fact
  | .ok r => [decided r]
  | .error _ => []

/-- An eviction that found nothing, or was refused, is no fact. -/
def ofEviction : Except Error (Option Identity) → List Fact
  | .ok removed => List.replicate removed.isSome.toNat evicted
  | .error _ => []

end Fact

/-- What the counters tell numbers of. -/
inductive Measure
  | looks
  | servedFromCache | servedFromNetwork | alternatives | inconsistencies
  | keeps | attaches | clears | replaces
  | evictions

/-- The facts that a measure is the number of. -/
def Measure.counts : Measure → Fact → Bool
  | looks, .lookedUp => true
  | looks, .started => true
  | servedFromCache, .fetched confirmed (.ok _) => confirmed
  | servedFromNetwork, .fetched confirmed (.ok _) => !confirmed
  | alternatives, .fetched _ (.ok r) => r.representation = .alternative
  | inconsistencies, .fetched _ (.error (.inconsistentRevalidation _ _)) => true
  | keeps, .decided r => r.kind = .keep
  | attaches, .decided r => r.kind = .attach
  | clears, .decided r => r.kind = .clear
  | replaces, .decided r => r.kind = .replace
  | evictions, .evicted => true
  | _, _ => false

/-- The counters in which a measure shows. -/
def Counters.reading (c : Counters) : Measure → Nat
  | .looks => c.hits + c.misses
  | .servedFromCache => c.servedFromCache
  | .servedFromNetwork => c.servedFromNetwork
  | .alternatives => c.alternativesServed
  | .inconsistencies => c.inconsistentRevalidations
  | .keeps => c.keeps
  | .attaches => c.attaches
  | .clears => c.clears
  | .replaces => c.replaces
  | .evictions => c.evictions

/-- The counting goes up by these facts. -/
def Counts (f : Counters → Counters) (facts : List Fact) : Prop :=
  ∀ c measure, (f c).reading measure = c.reading measure + facts.countP measure.counts

theorem reading_steady (c : Counters) (measure : Measure) : c.steady.reading measure = c.reading measure := by
  cases measure <;> rfl

theorem counts_setEntries (n : Nat) : Counts (·.setEntries n) [] := by
  intro c measure
  cases measure <;> rfl

theorem counts_countHit {fact : Fact} (h : fact = .lookedUp ∨ fact = .started) : Counts (·.countHit) [fact] := by
  intro c measure
  cases measure with
  | looks => rcases h with rfl | rfl <;> exact Nat.add_right_comm c.hits 1 c.misses
  | _ => rcases h with rfl | rfl <;> rfl

theorem counts_countMiss {fact : Fact} (h : fact = .lookedUp ∨ fact = .started) : Counts (·.countMiss) [fact] := by
  intro c measure
  cases measure <;> rcases h with rfl | rfl <;> rfl

theorem counts_countServed (confirmed : Bool) (r : Response) :
    Counts (·.countServed confirmed (r.representation = .alternative)) [.fetched confirmed (.ok r)] := by
  intro c measure
  cases measure <;> cases confirmed <;> cases hr : r.representation <;>
    simp [Counters.countServed, Counters.reading, Measure.counts, hr]

theorem counts_countInconsistent (confirmed : Bool) (key reason : String) :
    Counts (·.countInconsistent) [.fetched confirmed (.error (.inconsistentRevalidation key reason))] := by
  intro c measure
  cases measure <;> rfl

theorem counts_countDecision (r : Reconciliation) : Counts (·.countDecision r.kind) [.decided r] := by
  obtain ⟨entry, kind, previous, changed⟩ := r
  intro c measure
  cases kind <;> cases measure <;> rfl

theorem counts_countEviction : Counts (·.countEviction) [.evicted] := by
  intro c measure
  cases measure <;> rfl

theorem counts_fetched_of_error {confirmed : Bool} {e : Error}
    (h : ∀ key reason, e ≠ .inconsistentRevalidation key reason) : Counts id [.fetched confirmed (.error e)] := by
  intro c measure
  cases measure with
  | inconsistencies =>
    cases e with
    | inconsistentRevalidation key reason => exact absurd rfl (h key reason)
    | _ => rfl
  | _ => rfl

/-- Between two states of a store these facts happened: they are what the counters went up by and what became of the number
of live entries, and the gauge, if it showed that number, still does. -/
structure Store.Accounts (s : Store) (facts : List Fact) (s' : Store) : Prop where
  readings : ∀ measure,
    s'.monitor.counters.reading measure = s.monitor.counters.reading measure + facts.countP measure.counts
  count : s'.count + facts.countP Measure.evictions.counts =
    s.count + facts.countP Fact.creates + facts.countP Fact.installs
  gauge : s.monitor.counters.entries = s.count → s'.monitor.counters.entries = s'.count

namespace Store
variable {s s' s'' : Store} {seen seen' : List Fact} {streams streams' : Streams} {now : Moment} {key : Key}

theorem Accounts.append (h : s.Accounts seen s') (h' : s'.Accounts seen' s'') : s.Accounts (seen ++ seen') s'' where
  readings measure := by rw [h'.readings, h.readings, List.countP_append, Nat.add_assoc]
  count := by
    have hbefore := h.count
    have hafter := h'.count
    simp only [List.countP_append]
    omega
  gauge hs := h'.gauge (h.gauge hs)

/-- Nothing happened that is counted, but for what is counted about persistence. -/
theorem Accounts.of_steady (hcounters : s'.monitor.counters.steady = s.monitor.counters.steady)
    (hcount : s'.count = s.count) : s.Accounts [] s' where
  readings measure := by rw [← reading_steady, hcounters, reading_steady, List.countP_nil, Nat.add_zero]
  count := hcount
  gauge hs := (congrArg Counters.entries hcounters).trans (hs.trans hcount.symm)

/-- Facts that leave the number of entries as it was show in the counters only. -/
theorem Accounts.of_counts {f : Counters → Counters} (hf : Counts f seen) (hentries : ∀ c, (f c).entries = c.entries)
    (hstill : seen.countP Measure.evictions.counts = seen.countP Fact.creates + seen.countP Fact.installs)
    (hcounters : s'.monitor.counters = f s.monitor.counters) (hcount : s'.count = s.count) : s.Accounts seen s' where
  readings measure := by rw [hcounters, hf]
  count := by omega
  gauge hs := by rw [hcounters, hentries, hs, hcount]

/-- A look-up counts as one, be it a client's own or the beginning of a fetch. -/
theorem accounts_lookup (s : Store) (key : Key) {fact : Fact} (h : fact = .lookedUp ∨ fact = .started) :
    s.Accounts [fact] (s.lookup key).2 := by
  have hstill : [fact].countP Measure.evictions.counts = [fact].countP Fact.creates + [fact].countP Fact.installs := by
    rcases h with rfl | rfl <;> rfl
  unfold lookup
  cases s.live? key with
  | none => exact .of_counts (counts_countMiss h) (fun _ => rfl) hstill rfl rfl
  | some entry => exact .of_counts (counts_countHit h) (fun _ => rfl) hstill rfl rfl

section
variable {decide : Option Entry → Except Error Decision}

/-- What the store takes for a new entry is what the answer calls created. -/
theorem Ending.isNew_eq {r : Reconciliation} (h : Ending s streams now key decide (.ok r) s') (hs : s.Living streams) :
    (r.changed && r.previous.isAbsent) = r.created := by
  have habsent : r.previous.isAbsent = (s.live? key).isNone := by
    rw [h.previous_eq]
    exact hs.isAbsent_identityOf key
  rw [Bool.eq_iff_iff, Bool.and_eq_true, habsent, Option.isNone_iff_eq_none, h.created_iff hs, and_iff_right_iff_imp]
  intro hvacant
  rw [h.changed_iff, h.live?_ok, if_pos rfl, hvacant]
  simp

theorem Ending.count_ok {r : Reconciliation} (h : Ending s streams now key decide (.ok r) s') (hs : s.Living streams) :
    s'.count = s.count + r.created.toNat := by
  rw [← h.isNew_eq hs]
  cases h with
  | stands decision entry hd hlive h => rfl
  | revised decision entry mint s' hd h hship => rw [count_applied, hship.count_eq, Bool.true_and]

theorem entries_countDecision (c : Counters) (kind : Decision.Kind) : (c.countDecision kind).entries = c.entries := by
  cases kind <;> rfl

theorem Ending.accounts {answer : Except Error Reconciliation} (h : Ending s streams now key decide answer s')
    (hs : s.Living streams) : s.Accounts (Fact.ofDecision answer) s' := by
  cases answer with
  | error e =>
    obtain ⟨mint, rfl⟩ := h.error_eq
    exact .of_steady rfl rfl
  | ok r =>
    refine ⟨fun measure => ?_, ?_, fun hgauge => ?_⟩
    -- To set the gauge of a new entry changes no reading, so only the decision is counted.
    · rw [h.counters_ok, countRevision, counts_countDecision]
      split
      · rw [counts_setEntries]
        rfl
      · rfl
    · rw [h.count_ok hs]
      cases hr : r.created <;> simp [Fact.ofDecision, Measure.counts, Fact.creates, Fact.installs, hr]
    -- The gauge is set where the number of entries grows, and only there.
    · rw [h.counters_ok, countRevision, entries_countDecision, h.isNew_eq hs, h.count_ok hs]
      cases r.created with
      | false => exact hgauge
      | true => rfl

end

theorem Eviction.accounts {answer : Except Error (Option Identity)} (h : Eviction s now key answer s')
    (hs : s.Living streams) : s.Accounts (Fact.ofEviction answer) s' := by
  cases h with
  | nothing hlive => exact .of_steady rfl rfl
  | refused entry e hlive hsub => exact .of_steady rfl rfl
  | removed entry t hlive hsub =>
    have hcount : t.count = s.count ∧ t.monitor.counters = s.monitor.counters := by cases hsub <;> exact ⟨rfl, rfl⟩
    -- There is an entry to be removed, so the number of entries really goes down.
    have hpos : 0 < s.count := by
      rw [hs.counted]
      exact List.length_pos_of_mem ((mem_keys_iff hs.sound.tidy key).mpr ⟨entry, hlive⟩)
    refine ⟨fun measure => ?_, ?_, fun _ => rfl⟩
    · show ((t.monitor.counters.setEntries (t.count - 1)).countEviction).reading measure = _
      rw [counts_countEviction, counts_setEntries, hcount.2]
      rfl
    · show t.count - 1 + 1 = s.count
      omega

/-- Evictions that go well count for as many as they add to their number. -/
theorem accounts_evictEach (keys : List Key) : ∀ (n : Nat) {s : Store}, s.Living streams →
    ∀ m, (evictEach now keys n s).1 = .ok m → ∃ k, m = n + k ∧
      s.Accounts (List.replicate k .evicted) (evictEach now keys n s).2 := by
  induction keys with
  | nil =>
    intro n s hs m hm
    exact ⟨0, (Except.ok.inj hm).symm, .of_steady rfl rfl⟩
  | cons key rest ih =>
    intro n s hs m hm
    have hev := eviction hs.sound.tidy now key
    unfold evictEach at hm ⊢
    generalize s.evict now key = result at hev hm ⊢
    obtain ⟨answer, t⟩ := result
    cases answer with
    | error e => exact absurd hm (by simp)
    | ok removed =>
      obtain ⟨k, rfl, hrest⟩ := ih _ (hev.living hs) m hm
      refine ⟨removed.isSome.toNat + k, Nat.add_assoc .., ?_⟩
      rw [← List.replicate_append_replicate]
      exact (hev.accounts hs).append hrest

/-- What happens in a call, read off its reply. -/
def facts (s : Store) (c : Call) : List Fact :=
  match (s.perform c).1 with
  | .ok (.found _) => [.lookedUp]
  | .ok (.reconciled r) => [.decided r]
  | .ok (.removed identity) => Fact.ofEviction (.ok identity)
  | .ok (.emptied n) => List.replicate n .evicted
  | .error _ => []

theorem facts_of_decide? {c : Call} {decide : Option Entry → Except Error Decision}
    (h : c.request.decide? = some (key, decide)) :
    s.facts c = Fact.ofDecision (s.reconcileWith c.streams c.now key decide).1 := by
  rw [facts, perform_of_decide? h]
  cases (s.reconcileWith c.streams c.now key decide).1 <;> rfl

theorem facts_evict (s : Store) (streams : Streams) (now : Moment) (key : Key) :
    s.facts ⟨.evict key, streams, now⟩ = Fact.ofEviction (s.evict now key).1 := by
  simp only [facts, perform]
  cases (s.evict now key).1 <;> rfl

theorem Living.accounts_perform {c : Call} (h : s.Living c.streams) : s.Accounts (s.facts c) (s.perform c).2 := by
  cases hr : c.request.decide? with
  | some p =>
    obtain ⟨key, decide⟩ := p
    rw [facts_of_decide? hr, perform_of_decide? hr]
    exact (ending c.streams c.now key decide h.sound.tidy).accounts h
  | none =>
    obtain ⟨request, streams, now⟩ := c
    cases request with
    | lookup key => exact s.accounts_lookup key (.inl rfl)
    | evict key =>
      rw [s.facts_evict]
      exact (eviction h.sound.tidy now key).accounts h
    | evictAll =>
      simp only [facts, perform, evictAll]
      cases hanswer : (evictEach now s.keys 0 s).1 with
      | error e =>
        -- When an eviction is refused, none was made before it.
        rw [(evictEach_error now s.keys 0 s h.sound.tidy hanswer).1]
        exact .of_steady rfl rfl
      | ok n =>
        -- The reply is the number of entries that were removed, since none were before.
        obtain ⟨k, hk, hevicted⟩ := accounts_evictEach s.keys 0 h n hanswer
        rw [Nat.zero_add] at hk
        exact hk ▸ hevicted
    | reconcile | reconcileWith | attach | clear => exact absurd hr (by simp [Request.decide?])

theorem Restoring.accounts {record : Record} {isNew : Bool} (h : Restoring s now record streams isNew streams' s') :
    s.Accounts (List.replicate isNew.toNat .installed) s' := by
  cases h with
  | skipped habsent => exact .of_steady rfl rfl
  | passed entry hpresent hlive => exact .of_steady rfl rfl
  | installed hpresent hlive => exact ⟨fun measure => by cases measure <;> rfl, rfl, fun _ => rfl⟩

theorem accounts_restore (now : Moment) (records : List Record) : ∀ (streams : Streams) (s : Store),
    s.Accounts (List.replicate (s.restore now records streams).1 .installed) (s.restore now records streams).2.2 := by
  induction records with
  | nil => exact fun _ _ => .of_steady rfl rfl
  | cons record rest ih =>
    intro streams s
    have hone := (restoring now record streams s).accounts
    simp only [restore]
    rw [Nat.add_comm, ← List.replicate_append_replicate]
    exact hone.append (ih _ _)

end Store

namespace Service
variable {s s' : Service}

/-- To tell of what happened is not counted. -/
theorem Told.accounts {store : Store} {seen : List Fact} (h : s.Told s') (hs : store.Accounts seen s.store) :
    store.Accounts seen s'.store := by
  obtain ⟨notices, collected, rfl⟩ := h
  have htold : s.store.Accounts [] { s.store with monitor := { s.store.monitor with notices } } := .of_steady rfl rfl
  simpa using hs.append htold

variable (s) (streams : Streams) (now : Moment) (key : Key) (intent : Intent)

/-- What is served is counted, and only the look at a stream can go wrong. -/
theorem accounts_serve (confirmed : Bool) {source : Source} (hsource : decide (source = .cache) = confirmed)
    (r : Reconciliation) : s.store.Accounts [.fetched confirmed (s.serve streams intent source r).1]
      (s.serve streams intent source r).2.store := by
  simp only [serve]
  split
  · rename_i e hcontent
    have hgenuine : ∀ key reason, e ≠ .inconsistentRevalidation key reason := by
      rintro key reason rfl
      rcases Streams.error_of_ensureSealed (by rw [Streams.ensureSealed, hcontent]; rfl) with h | h <;> cases h
    exact .of_counts (counts_fetched_of_error hgenuine) (fun _ => rfl) rfl rfl rfl
  · rw [hsource]
    exact .of_counts (counts_countServed confirmed _) (fun _ => rfl) rfl rfl rfl

theorem accounts_conclude {outcome : Outcome} (hs : s.store.Living streams) :
    s.store.Accounts
      (Fact.ofDecision (s.store.reconcileWith streams now key fun current => Decision.decide key current outcome intent).1 ++
        [.fetched (outcome = .notModified) (s.conclude streams now key intent outcome).1])
      (s.conclude streams now key intent outcome).2.store := by
  have hdecided := (Store.ending streams now key (fun current => Decision.decide key current outcome intent)
    hs.sound.tidy).accounts hs
  refine hdecided.append ?_
  -- The decision is accounted for. What is left is what its answer leads to.
  unfold conclude
  generalize s.store.reconcileWith streams now key _ = result
  obtain ⟨answer, store⟩ := result
  cases answer with
  | ok r =>
    have htold := (told_publishReconciliation { s with store } streams now r).accounts (.of_steady rfl rfl)
    exact htold.append (accounts_serve _ streams intent _ (by cases outcome <;> rfl) r)
  | error e =>
    cases e with
    | inconsistentRevalidation k reason =>
      refine (told_publish _ _).accounts ?_
      exact .of_counts (counts_countInconsistent _ k reason) (fun _ => rfl) rfl rfl rfl
    | _ => exact .of_counts (counts_fetched_of_error (by simp)) (fun _ => rfl) rfl rfl rfl

theorem accounts_clear (hs : s.store.Living streams) :
    s.store.Accounts (Fact.ofDecision (s.store.clear streams now key).1) (s.clear streams now key).2.store := by
  have hdecided : s.store.Accounts (Fact.ofDecision (s.store.clear streams now key).1) (s.store.clear streams now key).2 :=
    (Store.ending streams now key _ hs.sound.tidy).accounts hs
  unfold clear
  generalize s.store.clear streams now key = result at hdecided ⊢
  obtain ⟨answer, store⟩ := result
  cases answer with
  | error e => exact hdecided
  | ok r => exact (told_publishReconciliation { s with store } streams now r).accounts hdecided

theorem accounts_finish {o : Output} {streams' : Streams} (hfinish : streams.finish o.stream = .ok streams')
    (hs : s.store.Living streams') :
    s.store.Accounts (Fact.ofDecision (s.store.attach streams' now o.key o.identity ⟨o.label, o.stream⟩).1)
      (s.finish streams now o).2.2.store := by
  have hdecided : s.store.Accounts (Fact.ofDecision (s.store.attach streams' now o.key o.identity ⟨o.label, o.stream⟩).1)
      (s.store.attach streams' now o.key o.identity ⟨o.label, o.stream⟩).2 :=
    (Store.ending streams' now o.key _ hs.sound.tidy).accounts hs
  simp only [finish, hfinish]
  generalize s.store.attach streams' now o.key o.identity ⟨o.label, o.stream⟩ = result at hdecided ⊢
  obtain ⟨answer, store⟩ := result
  cases answer with
  | error e => exact hdecided
  | ok r => exact (told_publishReconciliation { s with store } streams' now r).accounts hdecided

theorem accounts_evict (hs : s.store.Living streams) :
    s.store.Accounts (Fact.ofEviction (s.store.evict now key).1) (s.evict now key).2.store := by
  have hevicted := (Store.eviction hs.sound.tidy now key).accounts hs
  unfold evict
  generalize s.store.evict now key = result at hevicted ⊢
  obtain ⟨answer, store⟩ := result
  simp only
  split
  · exact (told_publish { s with store } _).accounts hevicted
  · exact hevicted

end Service

section
variable {answer : Answer} {streams streams' : Streams}

/-- To receive an answer fails when the exchange failed. -/
theorem Answer.error_of_receive {e : Error} (h : answer.receive streams = (.error e, streams')) :
    ∃ reason, e = .origin reason := by
  cases answer with
  | failure reason => exact ⟨reason, (Except.error.inj (congrArg Prod.fst h)).symm⟩
  | notModified | full => exact absurd (congrArg Prod.fst h) (by simp [receive])

theorem Answer.eq_notModified_iff {outcome : Outcome} (h : answer.receive streams = (.ok outcome, streams')) :
    answer = .notModified ↔ outcome = .notModified := by
  have houtcome := congrArg Prod.fst h
  cases answer with
  | notModified => simp [← Except.ok.inj houtcome]
  | full body contentType => simp [← Except.ok.inj houtcome]
  | failure reason => exact absurd houtcome (by simp [receive])

end

namespace System

/-- What happens in a move: that a fetch begins, what the call of the move comes to, and how the fetch ends. -/
def facts (y : System) (m : Move) : List Fact :=
  let called := match y.call? m with
    | some (s, c) => s.facts c
    | none => []
  match m with
  | .inquire _ _ => [.started]
  | .conclude now key intent outcome =>
    called ++ [.fetched (outcome = .notModified) (y.service.conclude y.streams now key intent outcome).1]
  | .fetch now key intent =>
    [.started] ++ called ++
      [.fetched ((y.service.inquire key intent).1 = .notModified) (y.service.fetch y.streams now key intent).1]
  | .restore now records => List.replicate (y.store.restore now records y.streams).1 .installed
  | _ => called

/-- What happens in a run. -/
def record (y : System) : List Move → List Fact
  | [] => []
  | m :: rest => y.facts m ++ (y.step m).record rest

variable {y : System}

theorem accounts_inquire (y : System) (key : Key) (intent : Intent) :
    y.store.Accounts [.started] (y.service.inquire key intent).2.store := y.store.accounts_lookup key (.inr rfl)

theorem accounts_conclude (hy : y.store.Living y.streams) (now : Moment) (key : Key) (intent : Intent) (outcome : Outcome) :
    y.store.Accounts (y.facts (.conclude now key intent outcome)) (y.step (.conclude now key intent outcome)).store := by
  have hfacts : y.store.facts ⟨revalidation key intent outcome, y.streams, now⟩ = _ := Store.facts_of_decide? rfl
  simp only [facts, call?, hfacts]
  exact y.service.accounts_conclude y.streams now key intent hy

/-- A fetch counts once when it begins and once when it ends. -/
theorem accounts_fetch (hy : y.store.Living y.streams) (now : Moment) (key : Key) (intent : Intent) :
    y.store.Accounts (y.facts (.fetch now key intent)) (y.step (.fetch now key intent)).store := by
  have hbegun := y.accounts_inquire key intent
  -- Either nothing was received and the fetch ends here, or it goes on as its second half, made between the halves.
  cases hreceive : (y.service.inquire key intent).1.receive y.streams with
  | mk received streams =>
    cases received with
    | error e =>
      obtain ⟨reason, rfl⟩ := Answer.error_of_receive hreceive
      obtain ⟨hanswer, hstep⟩ := fetch_of_error now hreceive
      simp only [facts, call?, hreceive, hanswer, hstep]
      exact hbegun.append (.of_counts (counts_fetched_of_error (by simp)) (fun _ => rfl) rfl rfl rfl)
    | ok outcome =>
      have hinquired : (y.inquired key intent streams).store.Living streams := (living_inquired hy hreceive).1
      have hlast := accounts_conclude (y := y.inquired key intent streams) hinquired now key intent outcome
      have hconfirmed := Answer.eq_notModified_iff hreceive
      rw [step_fetch_of_ok hreceive]
      simp only [facts, call?, hreceive, fetch_fst_of_ok hreceive, hconfirmed] at hlast ⊢
      rw [List.append_assoc]
      exact hbegun.append hlast

theorem accounts_finish (hy : y.store.Living y.streams) (now : Moment) (o : Output) :
    y.store.Accounts (y.facts (.finish now o)) (y.step (.finish now o)).store := by
  cases hfinish : y.streams.finish o.stream with
  | error e =>
    simp only [facts, call?, hfinish, step, Service.finish_of_error _ _ now hfinish]
    exact .of_steady rfl rfl
  | ok streams =>
    have hfacts : y.store.facts ⟨.attach o.key o.identity ⟨o.label, o.stream⟩, streams, now⟩ = _ :=
      Store.facts_of_decide? rfl
    simp only [facts, call?, hfinish, hfacts]
    exact y.service.accounts_finish y.streams now hfinish (hy.of_keeps (Streams.keeps_finish hfinish))

theorem accounts_step (hy : y.store.Living y.streams) (m : Move) : y.store.Accounts (y.facts m) (y.step m).store := by
  cases m with
  | ask now request => exact hy.accounts_perform (c := ⟨request, y.streams, now⟩)
  | fetch now key intent => exact accounts_fetch hy now key intent
  | inquire key intent => exact y.accounts_inquire key intent
  | conclude now key intent outcome => exact accounts_conclude hy now key intent outcome
  | finish now o => exact accounts_finish hy now o
  | clear now key =>
    have hfacts : y.store.facts ⟨.clear key, y.streams, now⟩ = _ := Store.facts_of_decide? rfl
    simp only [facts, call?, hfacts]
    exact y.service.accounts_clear y.streams now key hy
  | evict now key =>
    have hfacts : y.store.facts ⟨.evict key, y.streams, now⟩ = _ := y.store.facts_evict y.streams now key
    simp only [facts, call?, hfacts]
    exact y.service.accounts_evict y.streams now key hy
  -- What a writer counts is not among the facts.
  | work w =>
    simp only [facts, call?, step, Service.pipeline?]
    cases hj : y.service.store.journal with
    | none => exact .of_steady rfl rfl
    | some j => exact .of_steady (steady_writerStep ⟨j, y.backend, y.service.store.monitor⟩ w) rfl
  | flush b elapsed =>
    simp only [facts, call?, step]
    split
    · exact .of_steady rfl rfl
    · split <;> exact .of_steady rfl rfl
  | close | cancel =>
    simp only [facts, call?, step, mapJournal]
    cases y.store.journal <;> exact .of_steady rfl rfl
  | restore now records => exact Store.accounts_restore now records y.streams y.store
  | submit now change =>
    have hsub := y.store.submission now change
    simp only [facts, call?, step]
    cases hsubmit : y.store.submit now change with
    | error e => exact .of_steady rfl rfl
    | ok s =>
      rw [hsubmit] at hsub
      cases hsub <;> exact .of_steady rfl rfl
  | receive | script | openStream | writeStream | sealStream | releaseStream | disturb => exact .of_steady rfl rfl

theorem accounts_run (moves : List Move) : ∀ {y : System}, y.store.Living y.streams →
    y.store.Accounts (y.record moves) (y.run moves).store := by
  induction moves with
  | nil => exact fun _ => .of_steady rfl rfl
  | cons m rest ih => exact fun hy => (accounts_step hy m).append (ih (living_step hy m))

/-- After every run of a new service, whatever the origin answers, whatever fails and whatever records are taken in between,
the counters add up. Looks at the cache are the look-ups and the fetches that began. What was served is the fetches that went
well, from the cache when the origin had confirmed the copy and from the network when not; alternatives and inconsistent
revalidations are fetches that ended so. Decisions are counted by their kind when they went well, evictions when they removed
an entry. The gauge shows the live entries: what was created or taken in and not evicted. -/
theorem counters_add_up (config : Config) (persistent : Bool) (origin : Origin) (publisher : Publisher) (backend : Backend)
    (moves : List Move) :
    let start := start config persistent origin publisher backend
    let y := start.run moves
    let seen := start.record moves
    let counters := y.store.monitor.counters
    (∀ measure, counters.reading measure = seen.countP measure.counts) ∧
    counters.entries = y.store.count ∧ y.store.count = y.store.keys.length ∧
    counters.entries + counters.evictions = seen.countP Fact.creates + seen.countP Fact.installs := by
  intro start y seen counters
  have hstart : start.store.Living start.streams := living_start config persistent origin publisher backend
  have hrun : start.store.Accounts seen y.store := accounts_run moves hstart
  have hreading (measure : Measure) : counters.reading measure = seen.countP measure.counts := by
    have hzero : start.store.monitor.counters.reading measure = 0 := by cases measure <;> rfl
    rw [hrun.readings, hzero, Nat.zero_add]
  have hgauge : counters.entries = y.store.count := hrun.gauge rfl
  refine ⟨hreading, hgauge, (living_run hstart moves).counted, ?_⟩
  have hcount := hrun.count
  -- A new service has no entries, so what went in is what was evicted and what is still there.
  rw [← hreading .evictions, show start.store.count = 0 from rfl, Nat.zero_add] at hcount
  rw [hgauge]
  exact hcount

/-- A fetch that fails at the origin is a look at the cache, and nothing is served. -/
example :
    let origin : Origin := { script := [.full [120] "text/plain", .failure "down"] }
    let seen := (start {} true origin .nobody {}).record
      [.fetch ⟨0⟩ (.ofUri "/a") .none, .fetch ⟨1⟩ (.ofUri "/a") .none, .evict ⟨2⟩ (.ofUri "/a")]
    (seen.countP (Measure.counts .looks), seen.countP (Measure.counts .servedFromNetwork),
      seen.countP Fact.creates, seen.countP (Measure.counts .evictions)) = (2, 1, 1, 1) := by
  rw [Key.ofUri_a]
  decide

end System
end ResponseCache
