import ResponseCache.Proofs.Journal.Turn
import ResponseCache.Proofs.Results
import ResponseCache.Proofs.Store.Parallel

namespace ResponseCache

def Response.untimed (r : Response) : Response := { r with entry := r.entry.untimed }

namespace Service

/-- Two services over the same streams, with parallel stores, the same origin and the same settings. -/
structure Parallel (streams : Streams) (s t : Service) : Prop where
  store : s.store.Parallel streams t.store
  origin : s.origin = t.origin
  config : s.config = t.config

/-- The second service has noted and collected more, perhaps, and is the first one else. -/
def Told (s s' : Service) : Prop :=
  ∃ notices collected, s' = { s with store := { s.store with monitor := { s.store.monitor with notices } }, collected }

theorem told_refl (s : Service) : s.Told s := ⟨s.store.monitor.notices, s.collected, rfl⟩

theorem told_note (s : Service) (n : Notice) : s.Told (s.note n) := ⟨_, s.collected, rfl⟩

theorem told_publishTo (s : Service) (publisher : Publisher) (e : Event) : s.Told (s.publishTo publisher e) := by
  cases publisher with
  | nobody => exact s.told_refl
  | collector => exact ⟨s.store.monitor.notices, _, rfl⟩
  | log level => exact s.told_note _
  | broken error => exact s.told_note _

theorem told_publish (s : Service) (e : Event) : s.Told (s.publish e) := s.told_publishTo s.publisher e

theorem told_publishReconciliation (s : Service) (streams : Streams) (now : Moment) (r : Reconciliation) :
    s.Told (s.publishReconciliation streams now r) := by
  unfold publishReconciliation
  cases eventFor? streams now r with
  | none => exact s.told_refl
  | some e => exact s.told_publish e

namespace Parallel
variable {streams : Streams} {s s' t t' : Service}

theorem symm (h : s.Parallel streams t) : t.Parallel streams s := ⟨h.store.symm, h.origin.symm, h.config.symm⟩

theorem trans {u : Service} (h : s.Parallel streams t) (h' : t.Parallel streams u) : s.Parallel streams u :=
  ⟨h.store.trans h'.store, h.origin.trans h'.origin, h.config.trans h'.config⟩

theorem of_told (h : s.Parallel streams t) (hs : s.Told s') (ht : t.Told t') : s'.Parallel streams t' := by
  obtain ⟨notices, collected, rfl⟩ := hs
  obtain ⟨notices', collected', rfl⟩ := ht
  exact ⟨h.store.of_alike ⟨_, rfl⟩ ⟨_, rfl⟩ h.store.counters, h.origin, h.config⟩

theorem of_store (h : s.Parallel streams t) {store store' : Store} (hstore : store.Parallel streams store') :
    ({ s with store } : Service).Parallel streams { t with store := store' } := ⟨hstore, h.origin, h.config⟩

theorem count (h : s.Parallel streams t) {f : Counters → Counters} (hf : Steady f) :
    (s.count f).Parallel streams (t.count f) := by
  refine ⟨h.store.of_alike ⟨_, rfl⟩ ⟨_, rfl⟩ ?_, h.origin, h.config⟩
  show (f s.store.monitor.counters).steady = (f t.store.monitor.counters).steady
  rw [hf, hf, h.store.counters]

theorem inquire (h : s.Parallel streams t) (key : Key) (intent : Intent) :
    (s.inquire key intent).1 = (t.inquire key intent).1 ∧
      (s.inquire key intent).2.Parallel streams (t.inquire key intent).2 := by
  have hquestion : s.question key intent = t.question key intent := by
    simp only [question, Store.identityOf, identityOf_eq_of_map_untimed (h.store.live key)]
  obtain ⟨hasked, horigin⟩ := s.inquire_eq key intent
  obtain ⟨hasked', horigin'⟩ := t.inquire_eq key intent
  rw [h.origin, hquestion] at hasked horigin
  exact ⟨hasked.trans hasked'.symm, (h.store.lookup key).2, horigin.trans horigin'.symm, h.config⟩

/-- What is served does not depend on times. -/
theorem serve (h : s.Parallel streams t) (intent : Intent) (source : Source) {r r' : Reconciliation}
    (hr : r.untimed = r'.untimed) :
    (s.serve streams intent source r).1.map Response.untimed = (t.serve streams intent source r').1.map Response.untimed ∧
      (s.serve streams intent source r).2.Parallel streams (t.serve streams intent source r').2 := by
  have hentry : r.entry.untimed = r'.entry.untimed := congrArg Reconciliation.entry hr
  have halternative : r.entry.alternativeFor = r'.entry.alternativeFor := by
    show r.entry.untimed.alternativeFor = r'.entry.untimed.alternativeFor
    rw [hentry]
  have hprimary : r.entry.primary = r'.entry.primary := (congrArg Entry.primary hentry :)
  have hkind : r.kind = r'.kind := (congrArg Reconciliation.kind hr :)
  simp only [Service.serve]
  rw [halternative, hprimary, hkind]
  split
  · exact ⟨rfl, h⟩
  · refine ⟨?_, h.count fun _ => rfl⟩
    simp only [Except.map, Response.untimed, hentry]

theorem conclude (h : s.Parallel streams t) (now now' : Moment) (key : Key) (intent : Intent) (outcome : Outcome) :
    (s.conclude streams now key intent outcome).1.map Response.untimed =
        (t.conclude streams now' key intent outcome).1.map Response.untimed ∧
      (s.conclude streams now key intent outcome).2.Parallel streams (t.conclude streams now' key intent outcome).2 := by
  obtain ⟨hsame, hstore⟩ := h.store.reconcileWith now now' key (timeless_decide key outcome intent)
  unfold Service.conclude
  generalize s.store.reconcileWith streams now key _ = result at hsame hstore
  generalize t.store.reconcileWith streams now' key _ = result' at hsame hstore
  obtain ⟨answer, store⟩ := result
  obtain ⟨answer', store'⟩ := result'
  simp only at hsame hstore ⊢
  have hdecided := h.of_store hstore
  rcases map_eq_map_cases hsame with ⟨e, rfl, rfl⟩ | ⟨r, r', rfl, rfl, hr⟩
  · cases e with
    | inconsistentRevalidation k reason =>
      have hnoted := hdecided.of_told (told_note _ (.revalidationRejected key.display (.inconsistentRevalidation k reason)))
        (told_note _ (.revalidationRejected key.display (.inconsistentRevalidation k reason)))
      have hcounted := hnoted.count (f := (·.countInconsistent)) fun _ => rfl
      exact ⟨rfl, hcounted.of_told (told_publish _ _) (told_publish _ _)⟩
    | _ => exact ⟨rfl, hdecided⟩
  · have htold := hdecided.of_told (told_publishReconciliation _ streams now r) (told_publishReconciliation _ streams now' r')
    exact htold.serve intent _ hr

theorem fetch (h : s.Parallel streams t) (now now' : Moment) (key : Key) (intent : Intent) :
    (s.fetch streams now key intent).1.map Response.untimed = (t.fetch streams now' key intent).1.map Response.untimed ∧
      (s.fetch streams now key intent).2.1 = (t.fetch streams now' key intent).2.1 ∧
      (s.fetch streams now key intent).2.2.Parallel (s.fetch streams now key intent).2.1
        (t.fetch streams now' key intent).2.2 := by
  obtain ⟨hasked, hinquired⟩ := h.inquire key intent
  unfold Service.fetch
  generalize s.inquire key intent = result at hasked hinquired
  generalize t.inquire key intent = result' at hasked hinquired
  obtain ⟨answer, s'⟩ := result
  obtain ⟨answer', t'⟩ := result'
  obtain rfl : answer = answer' := hasked
  have hkeeps := streams.keeps_receive answer
  simp only
  generalize answer.receive streams = received at hkeeps
  obtain ⟨received, streams'⟩ := received
  have hreceived : s'.Parallel streams' t' := ⟨hinquired.store.of_keeps hkeeps, hinquired.origin, hinquired.config⟩
  cases received with
  | error e => exact ⟨rfl, rfl, hreceived⟩
  | ok outcome =>
    obtain ⟨hsame, hconcluded⟩ := hreceived.conclude now now' key intent outcome
    exact ⟨hsame, rfl, hconcluded⟩

theorem finish (h : s.Parallel streams t) (now now' : Moment) (o : Output) :
    (s.finish streams now o).1.map Entry.untimed = (t.finish streams now' o).1.map Entry.untimed ∧
      (s.finish streams now o).2.1 = (t.finish streams now' o).2.1 ∧
      (s.finish streams now o).2.2.Parallel (s.finish streams now o).2.1 (t.finish streams now' o).2.2 := by
  cases hfinish : streams.finish o.stream with
  | error e =>
    rw [s.finish_of_error streams now hfinish, t.finish_of_error streams now' hfinish]
    exact ⟨rfl, rfl, h⟩
  | ok streams' =>
    have hkept := h.store.of_keeps (Streams.keeps_finish hfinish)
    obtain ⟨hsame, hstore⟩ := hkept.attach now now' o.key o.identity ⟨o.label, o.stream⟩
    have hdecided : ({ s with store := _ } : Service).Parallel streams' { t with store := _ } :=
      ⟨hstore, h.origin, h.config⟩
    simp only [Service.finish, hfinish]
    generalize s.store.attach streams' now _ _ _ = result at hsame hdecided
    generalize t.store.attach streams' now' _ _ _ = result' at hsame hdecided
    obtain ⟨answer, store⟩ := result
    obtain ⟨answer', store'⟩ := result'
    rcases map_eq_map_cases hsame with ⟨e, rfl, rfl⟩ | ⟨r, r', rfl, rfl, hr⟩
    · exact ⟨rfl, rfl, hdecided⟩
    · have hentry : r.entry.untimed = r'.entry.untimed := congrArg Reconciliation.entry hr
      refine ⟨congrArg Except.ok hentry, rfl, ?_⟩
      exact hdecided.of_told (told_publishReconciliation _ _ _ _) (told_publishReconciliation _ _ _ _)

theorem clear (h : s.Parallel streams t) (now now' : Moment) (key : Key) :
    (s.clear streams now key).1.map Entry.untimed = (t.clear streams now' key).1.map Entry.untimed ∧
      (s.clear streams now key).2.Parallel streams (t.clear streams now' key).2 := by
  obtain ⟨hsame, hstore⟩ := h.store.clear now now' key
  have hdecided := h.of_store hstore
  unfold Service.clear
  generalize s.store.clear streams now key = result at hsame hdecided
  generalize t.store.clear streams now' key = result' at hsame hdecided
  obtain ⟨answer, store⟩ := result
  obtain ⟨answer', store'⟩ := result'
  rcases map_eq_map_cases hsame with ⟨e, rfl, rfl⟩ | ⟨r, r', rfl, rfl, hr⟩
  · exact ⟨rfl, hdecided⟩
  · have hentry : r.entry.untimed = r'.entry.untimed := congrArg Reconciliation.entry hr
    refine ⟨congrArg Except.ok hentry, ?_⟩
    exact hdecided.of_told (told_publishReconciliation _ _ _ _) (told_publishReconciliation _ _ _ _)

theorem evict (h : s.Parallel streams t) (now now' : Moment) (key : Key) :
    (s.evict now key).1 = (t.evict now' key).1 ∧ (s.evict now key).2.Parallel streams (t.evict now' key).2 := by
  obtain ⟨hsame, hstore⟩ := h.store.evict now now' key
  have hevicted := h.of_store hstore
  unfold Service.evict
  generalize s.store.evict now key = result at hsame hevicted
  generalize t.store.evict now' key = result' at hsame hevicted
  obtain ⟨answer, store⟩ := result
  obtain ⟨answer', store'⟩ := result'
  obtain rfl : answer = answer' := hsame
  cases answer with
  | error e => exact ⟨rfl, hevicted⟩
  | ok removed =>
    cases removed with
    | none => exact ⟨rfl, hevicted⟩
    | some identity => exact ⟨rfl, hevicted.of_told (told_publish _ _) (told_publish _ _)⟩

end Parallel

theorem isOpen_start (config : Config) (persistent : Bool) (origin : Origin) (publisher : Publisher) :
    (start config persistent origin publisher).store.IsOpen := by
  intro j hj
  cases persistent with
  | false => cases hj
  | true =>
    cases hj
    rfl

theorem parallel_start (config : Config) (origin : Origin) (persistent persistent' : Bool) (publisher publisher' : Publisher) :
    (start config persistent origin publisher).Parallel {} (start config persistent' origin publisher') where
  store := ⟨.fresh {} rfl rfl rfl, .fresh {} rfl rfl rfl, isOpen_start config persistent origin publisher,
    isOpen_start config persistent' origin publisher', fun _ => rfl, rfl, rfl⟩
  origin := rfl
  config := rfl

end Service

namespace System

/-- Two systems over the same streams with parallel services. -/
structure Parallel (y z : System) : Prop where
  streams : y.streams = z.streams
  service : y.service.Parallel y.streams z.service

/-- What clients get out of a move, with the times left out. -/
def Result.untimed : Result → Result
  | .replied answer => .replied <| answer.map fun
    | .found entry => .found (entry.map Entry.untimed)
    | .reconciled r => .reconciled r.untimed
    | .removed identity => .removed identity
    | .emptied n => .emptied n
  | .served answer => .served (answer.map Response.untimed)
  | .entered answer => .entered (answer.map Entry.untimed)
  | .asked answer => .asked answer
  | .received answer => .received answer
  | .removed answer => .removed answer
  | .opened id => .opened id
  | .acted answer => .acted answer

/-- The service operation that a move is, with the time left out. What the journal, the backend and flushes do in between is
none. -/
def command? : Move → Option Move
  | .fetch _ key intent => some (.fetch ⟨0⟩ key intent)
  | .conclude _ key intent outcome => some (.conclude ⟨0⟩ key intent outcome)
  | .finish _ o => some (.finish ⟨0⟩ o)
  | .clear _ key => some (.clear ⟨0⟩ key)
  | .evict _ key => some (.evict ⟨0⟩ key)
  | .ask _ request => some (.ask ⟨0⟩ request)
  | .work _ | .flush _ _ | .disturb _ => none
  | m => some m

/-- The move is a service operation or a look-up, or it goes on behind them: the writer works, a flush ends, and something
happens to the backend. -/
def Move.Served : Move → Prop
  | .ask _ (.lookup _) => True
  | .ask _ _ | .close | .cancel | .restore _ _ | .submit _ _ => False
  | _ => True

/-- What the writer counts is about persistence. -/
theorem steady_writerStep (p : Pipeline) (step : WriterStep) :
    (p.step step).monitor.counters.steady = p.monitor.counters.steady := by
  cases step with
  | take | publish => rfl
  | apply => exact congrArg Counters.steady p.counters_apply
  | file =>
    show p.file.monitor.counters.steady = _
    cases hhand : p.journal.hand with
    | settled item failure => cases failure <;> simp only [Pipeline.file, hhand] <;> rfl
    | empty | working item due | filed item => simp only [Pipeline.file, hhand]

namespace Parallel
variable {y y' z z' : System}

theorem symm (h : y.Parallel z) : z.Parallel y := ⟨h.streams.symm, h.streams ▸ h.service.symm⟩

theorem trans {w : System} (h : y.Parallel z) (h' : z.Parallel w) : y.Parallel w :=
  ⟨h.streams.trans h'.streams, h.service.trans (h.streams ▸ h'.service)⟩

theorem of_streams (h : y.Parallel z) {streams : Streams} (hk : y.streams.Keeps streams) :
    ({ y with streams } : System).Parallel { z with streams } :=
  ⟨rfl, h.service.store.of_keeps hk, h.service.origin, h.service.config⟩

/-- An action on a stream ends the same in both. -/
theorem act (h : y.Parallel z) (f : Streams → Except Error Streams)
    (hf : ∀ streams, f y.streams = .ok streams → y.streams.Keeps streams) :
    ({ y with streams := (f y.streams).toOption.getD y.streams } : System).Parallel
      { z with streams := (f z.streams).toOption.getD z.streams } := by
  rw [← h.streams]
  cases hresult : f y.streams with
  | error e => exact ⟨rfl, h.service⟩
  | ok streams => exact h.of_streams (hf streams hresult)

/-- A service operation gives the same result in both systems, whenever it is made, and leaves them parallel. -/
theorem step (h : y.Parallel z) {m c : Move} (hm : m.Served) (hc : command? m = some c) :
    (y.step m).Parallel (z.step c) ∧ (y.result? m).map Result.untimed = (z.result? c).map Result.untimed := by
  -- The streams are the same, so they are given one name.
  obtain ⟨streams, backend', service'⟩ := z
  obtain rfl : y.streams = streams := h.streams
  cases m with
  | ask now request =>
    cases hc
    cases request with
    | lookup key =>
      obtain ⟨hfound, hstore⟩ := h.service.store.lookup key
      refine ⟨⟨rfl, h.service.of_store hstore⟩, ?_⟩
      exact congrArg (fun found => some (Result.replied (.ok (.found found)))) hfound
    | reconcile | reconcileWith | attach | clear | evict | evictAll => exact hm.elim
  | fetch now key intent =>
    cases hc
    obtain ⟨hserved, hstreams', hservice⟩ := h.service.fetch now ⟨0⟩ key intent
    exact ⟨⟨hstreams', hservice⟩, congrArg (fun answer => some (Result.served answer)) hserved⟩
  | inquire key intent =>
    cases hc
    obtain ⟨hasked, hservice⟩ := h.service.inquire key intent
    exact ⟨⟨rfl, hservice⟩, congrArg (fun answer => some (Result.asked answer)) hasked⟩
  | receive answer =>
    cases hc
    exact ⟨h.of_streams (y.streams.keeps_receive answer), rfl⟩
  | conclude now key intent outcome =>
    cases hc
    obtain ⟨hserved, hservice⟩ := h.service.conclude now ⟨0⟩ key intent outcome
    exact ⟨⟨rfl, hservice⟩, congrArg (fun answer => some (Result.served answer)) hserved⟩
  | finish now o =>
    cases hc
    obtain ⟨hentered, hstreams', hservice⟩ := h.service.finish now ⟨0⟩ o
    exact ⟨⟨hstreams', hservice⟩, congrArg (fun answer => some (Result.entered answer)) hentered⟩
  | clear now key =>
    cases hc
    obtain ⟨hentered, hservice⟩ := h.service.clear now ⟨0⟩ key
    exact ⟨⟨rfl, hservice⟩, congrArg (fun answer => some (Result.entered answer)) hentered⟩
  | evict now key =>
    cases hc
    obtain ⟨hremoved, hservice⟩ := h.service.evict now ⟨0⟩ key
    exact ⟨⟨rfl, hservice⟩, congrArg (fun answer => some (Result.removed answer)) hremoved⟩
  | script answer =>
    cases hc
    exact ⟨⟨rfl, h.service.store, congrArg (·.push answer) h.service.origin, h.service.config⟩, rfl⟩
  | openStream stream =>
    cases hc
    exact ⟨h.of_streams (y.streams.keeps_add stream), rfl⟩
  | writeStream id bytes =>
    cases hc
    exact ⟨h.act (·.write id bytes) fun _ => Streams.keeps_write, rfl⟩
  | sealStream id =>
    cases hc
    exact ⟨h.act (·.finish id) fun _ => Streams.keeps_finish, rfl⟩
  | releaseStream id =>
    cases hc
    exact ⟨h.of_streams (y.streams.keeps_release id), rfl⟩
  | work | flush | disturb => exact absurd hc (by simp [command?])
  | close | cancel | restore | submit => exact hm.elim

theorem of_journal (h : y.Parallel z) {backend : Backend} {journal : Option Journal} {monitor : Monitor}
    (hopen : ∀ j, journal = some j → j.accepting = true)
    (hcounters : monitor.counters.steady = y.store.monitor.counters.steady) :
    ({ y with backend, service := { y.service with store := { y.store with journal, monitor } } } : System).Parallel z :=
  ⟨h.streams, h.service.store.of_journal hopen hcounters, h.service.origin, h.service.config⟩

/-- What happens behind the service operations gives no result and leaves the systems parallel. -/
theorem step_of_quiet (h : y.Parallel z) {m : Move} (hm : m.Served) (hc : command? m = none) :
    (y.step m).Parallel z ∧ y.result? m = none := by
  have hopen := h.service.store.isOpen
  refine ⟨?_, by cases m <;> first | rfl | exact absurd hc (by simp [command?])⟩
  cases m with
  | work step =>
    simp only [System.step, Service.pipeline?]
    cases hj : y.service.store.journal with
    | none => exact h
    | some j =>
      refine h.of_journal ?_ (steady_writerStep ⟨j, y.backend, y.service.store.monitor⟩ step)
      rintro _ ⟨⟩
      exact (Pipeline.step_keeps _ step).1.trans (hopen j hj)
  | flush b elapsed =>
    simp only [System.step]
    cases hj : y.store.journal with
    | none => exact h.of_journal hopen rfl
    | some j =>
      simp only
      split
      · refine h.of_journal ?_ rfl
        rintro _ ⟨⟩
        exact hopen j hj
      · exact h
  | disturb backend => exact ⟨h.streams, h.service⟩
  | ask | fetch | inquire | receive | conclude | finish | clear | evict | script | openStream | writeStream |
    sealStream | releaseStream => exact absurd hc (by simp [command?])
  | close | cancel | restore | submit => exact hm.elim

/-- However the journal is written in between, service operations give the same results in both systems. -/
theorem run (moves : List Move) : ∀ {y z : System}, y.Parallel z → (∀ m ∈ moves, m.Served) →
    (y.run moves).Parallel (z.run (moves.filterMap command?)) ∧
      (y.results moves).map Result.untimed = (z.results (moves.filterMap command?)).map Result.untimed := by
  induction moves with
  | nil => exact fun h _ => ⟨h, rfl⟩
  | cons m rest ih =>
    intro y z h hserved
    have hm := hserved m List.mem_cons_self
    have hrest := fun m' hm' => hserved m' (List.mem_cons_of_mem m hm')
    cases hc : command? m with
    | none =>
      obtain ⟨hnext, hquiet⟩ := h.step_of_quiet hm hc
      obtain ⟨hrun, hresults⟩ := ih hnext hrest
      rw [List.filterMap_cons_none hc]
      refine ⟨hrun, ?_⟩
      rw [results, hquiet]
      exact hresults
    | some c =>
      obtain ⟨hnext, hsame⟩ := h.step hm hc
      obtain ⟨hrun, hresults⟩ := ih hnext hrest
      rw [List.filterMap_cons_some hc]
      refine ⟨hrun, ?_⟩
      rw [results, results, List.map_append, List.map_append, hresults]
      cases hy : y.result? m <;> cases hz : z.result? c <;> simp_all

end Parallel

/-- Service operations that come in the same order end the same and leave the same behind, with persistence and observers or
without them. -/
theorem parallel_runs (config : Config) (origin : Origin) (publisher : Publisher) (backend : Backend) {plain kept : List Move}
    (hplain : ∀ m ∈ plain, m.Served) (hkept : ∀ m ∈ kept, m.Served)
    (hsame : plain.filterMap command? = kept.filterMap command?) :
    ((start config false origin .nobody {}).run plain).Parallel ((start config true origin publisher backend).run kept) ∧
      ((start config false origin .nobody {}).results plain).map Result.untimed =
        ((start config true origin publisher backend).results kept).map Result.untimed := by
  -- Both are held against a run without persistence and observers in which nothing takes time.
  have hstart (persistent : Bool) (publisher : Publisher) (backend : Backend) :
      (start config persistent origin publisher backend).Parallel (start config false origin .nobody {}) :=
    ⟨rfl, Service.parallel_start config origin persistent false publisher .nobody⟩
  obtain ⟨hrun, hresults⟩ := (hstart false .nobody {}).run plain hplain
  obtain ⟨hrun', hresults'⟩ := (hstart true publisher backend).run kept hkept
  rw [hsame] at hrun hresults
  exact ⟨hrun.trans hrun'.symm, hresults.trans hresults'.symm⟩

end System
end ResponseCache
