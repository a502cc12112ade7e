import ResponseCache.Proofs.Journal.Prompt
import ResponseCache.Proofs.Moves
import ResponseCache.Proofs.Transparent
import ResponseCache.Replay

namespace ResponseCache

theorem Pipeline.steady_work (steps : List WriterStep) : ∀ p : Pipeline,
    (p.work steps).monitor.counters.steady = p.monitor.counters.steady := by
  induction steps with
  | nil => exact fun p => rfl
  | cons step rest ih => exact fun p => (ih (p.step step)).trans (System.steady_writerStep p step)

namespace Site

/-- On the way to the second site nothing has happened but that the journal was written. -/
structure Written (s s' : Site) : Prop where
  retired : s'.retired = s.retired
  streams : s'.streams = s.streams
  service : ∃ journal monitor, s'.service = { s.service with store := { s.service.store with journal, monitor } } ∧
    monitor.counters.steady = s.service.store.monitor.counters.steady
  isOpen : s.service.store.IsOpen → s'.service.store.IsOpen

namespace Written
variable {s s' s'' : Site}

theorem trans (h : s.Written s') (h' : s'.Written s'') : s.Written s'' := by
  obtain ⟨hretired, hstreams, ⟨journal, monitor, hservice, hcounters⟩, hopen⟩ := h
  obtain ⟨hretired', hstreams', ⟨journal', monitor', hservice', hcounters'⟩, hopen'⟩ := h'
  rw [hservice] at hservice' hcounters'
  exact ⟨hretired'.trans hretired, hstreams'.trans hstreams, ⟨journal', monitor', hservice', hcounters'.trans hcounters⟩,
    hopen' ∘ hopen⟩

end Written

section
variable {s : Site}

/-- While the writer works, the journal is written and nothing else happens. -/
theorem Works.written {s' : Site} (hretired : s.retired = []) (h : s.Works s') : s.Written s' := by
  obtain ⟨steps, hretired', hsystem⟩ := h
  cases hp : s.service.pipeline? s.backend with
  | none =>
    obtain ⟨hstreams, -, hservice⟩ := System.mk.inj (hsystem.trans (System.run_work_of_none (y := s.system) hp steps))
    exact ⟨hretired'.trans hretired.symm, hstreams, ⟨_, _, hservice, rfl⟩, fun hopen => (hservice ▸ hopen :)⟩
  | some p =>
    obtain ⟨hj, -, hmonitor⟩ := Service.pipeline?_eq_some.mp hp
    obtain ⟨hstreams, -, hservice⟩ := System.mk.inj (hsystem.trans (System.run_work steps (y := s.system) hp))
    refine ⟨hretired'.trans hretired.symm, hstreams, ⟨_, _, hservice, hmonitor ▸ p.steady_work steps⟩, ?_⟩
    intro hopen
    rw [hservice]
    rintro _ ⟨⟩
    exact (p.work_keeps steps).1.trans (hopen _ hj)

theorem written_complete (hretired : s.retired = []) (n : Nat) {j : Journal} (hj : s.service.store.journal = some j)
    (b : Barrier) : s.Written (s.complete n j b).2 := by
  simp only [complete, serviceAt_eq hretired]
  obtain ⟨line, log, hset⟩ := setServiceAt_eq hretired n
    (({ s.service with store := { s.service.store with journal := some (j.collect b).2 } } : Service).count
      (·.countFlush ⟨s.now - b.since⟩))
  rw [hset]
  refine ⟨rfl, rfl, ⟨_, _, rfl, rfl⟩, ?_⟩
  rintro hopen _ ⟨⟩
  exact hopen j hj

end

/-- The service of the site is its only one and keeps a journal, whose writer is prompt. -/
def Ready (s : Site) : Prop := ∃ p, s.Alone p ∧ p.Prompt s.now ∧ p.journal.hand.rests = true

namespace Alone
variable {s : Site} {p : Pipeline}

/-- A prompt writer is idle after a round, so one waits no longer than that. -/
theorem wait_of_prompt (h : s.Alone p) (hprompt : p.Prompt s.now) (hrests : p.journal.hand.rests = true)
    (stop : Site → Bool) (limit : Option Nat) : ∃ steps, (s.wait stop limit).Alone (p.work steps) ∧
      (p.work steps).journal.isIdle = true ∧ (s.wait stop limit).now = s.now := by
  obtain ⟨steps, halone, hnow, hwaits, -⟩ := h.round hrests
  have hidle := (hprompt.work steps).isIdle_of_waits hwaits
  have hnone : s.round.nextDue = none := by
    rw [halone.nextDue, Journal.due?, ((p.work steps).journal.isIdle_iff.mp hidle).1]
  have hwait : s.wait stop limit = s.round := by
    unfold Site.wait
    cases s.outstanding with
    | zero => rfl
    | succ fuel =>
      unfold Site.run
      rw [hnone]
      split <;> rfl
  rw [hwait]
  exact ⟨steps, halone, hidle, hnow⟩

theorem complete_of_prompt (h : s.Alone p) (hprompt : p.Prompt s.now) (hrests : p.journal.hand.rests = true) (b : Barrier) :
    (s.complete s.current p.journal b).1 = .ok () ∧ s.Written (s.complete s.current p.journal b).2 ∧
      (s.complete s.current p.journal b).2.Ready := by
  obtain ⟨⟨monitor, halone⟩, hnow⟩ := h.complete b
  obtain ⟨hanswer, hcollected⟩ := hprompt.collect b monitor
  refine ⟨hanswer, written_complete h.retired s.current h.journal b, _, halone, ?_, hrests⟩
  rw [hnow]
  exact hcollected

/-- With some patience a barrier that is set now is not given up now. -/
theorem poll_of_prompt (h : s.Alone p) (hprompt : p.Prompt s.now)
    (hwaits : ¬p.journal.reached (p.journal.barrier s.now) = true) : s.poll s.current (p.journal.barrier s.now) = none := by
  simp only [Site.poll, h.serviceAt, h.journal, Option.bind_some, if_neg hwaits, Journal.deadline?]
  cases hpatience : p.journal.patience with
  | none => rfl
  | some patience =>
    have hsome : patience ≠ ⟨0⟩ := fun hzero => hprompt.patience (hpatience.trans (congrArg some hzero))
    have hpositive : patience.nanos ≠ 0 := fun hzero => hsome (congrArg Span.mk hzero)
    have hlater : ¬s.now + patience.nanos ≤ s.now := by omega
    exact if_neg hlater

/-- With a prompt writer a flush goes well. -/
theorem flush_of_prompt (h : s.Alone p) (hprompt : p.Prompt s.now) (hrests : p.journal.hand.rests = true) :
    s.flush.1 = .ok () ∧ s.Written s.flush.2 ∧ s.flush.2.Ready := by
  unfold Site.flush
  rw [h.journal]
  simp only
  by_cases hreached : p.journal.reached (p.journal.barrier s.now) = true
  · rw [h.poll_of_reached hreached]
    exact h.complete_of_prompt hprompt hrests _
  · -- Some time is left, so one waits; then the writer is idle, and so the barrier reached.
    rw [h.poll_of_prompt hprompt hreached]
    generalize hb : p.journal.barrier s.now = b
    obtain ⟨steps, halone, hidle, hnow⟩ := h.wait_of_prompt hprompt hrests (isReached b) (p.journal.deadline? b)
    have hprompt' := hprompt.work steps
    have htarget : b.target = (p.work steps).journal.lastSeq :=
      (congrArg Barrier.target hb).symm.trans (Pipeline.lastSeq_work steps p).symm
    have hcommitted := hprompt'.numbered.reached_of_isIdle hidle (Nat.le_of_eq htarget)
    have hrests' : (p.work steps).journal.hand.rests = true := by
      rw [((p.work steps).journal.isIdle_iff.mp hidle).1]
      rfl
    rw [← hnow] at hprompt'
    obtain ⟨hanswer, hwritten, hready⟩ := halone.complete_of_prompt hprompt' hrests' b
    simp only
    rw [halone.poll_of_reached hcommitted]
    exact ⟨hanswer, ((works_wait h.retired _ _).written h.retired).trans hwritten, hready⟩

end Alone
end Site

theorem Store.Fed.of_alike {s s' u u' : Store} {now : Moment} (h : s.Alike s') (hfed : Fed now s' u) (h' : u.Alike u') :
    Fed now s u' := by
  obtain ⟨monitor, rfl⟩ := h
  obtain ⟨monitor', rfl⟩ := h'
  exact hfed

namespace Service
variable {s : Service} (streams : Streams) (now : Moment) (key : Key)

theorem fed_fetch (hs : s.store.Tidy) (intent : Intent) :
    s.store.Fed now (s.fetch streams now key intent).2.2.store := by
  have halike := s.alike_inquire key intent
  unfold fetch
  generalize s.inquire key intent = result at halike
  obtain ⟨answer, s'⟩ := result
  simp only
  generalize answer.receive streams = received
  obtain ⟨received, streams'⟩ := received
  cases received with
  | error e =>
    obtain ⟨monitor, hsame⟩ := halike
    exact .inl (congrArg Store.journal hsame :)
  | ok outcome =>
    have hs' : s'.store.Tidy := by
      obtain ⟨monitor, hsame⟩ := halike
      exact hs.of_slots (congrArg Store.slots hsame :)
    exact (Store.ending streams' now key _ hs').fed.of_alike halike (s'.alike_conclude streams' now key intent outcome)

theorem fed_finish (hs : s.store.Tidy) (o : Output) : s.store.Fed now (s.finish streams now o).2.2.store := by
  rcases s.alike_finish streams now o with hsame | ⟨streams', -, -, halike⟩
  · exact .inl (congrArg (fun result : Streams × Service => result.2.store.journal) hsame)
  · exact (Store.ending streams' now o.key _ hs).fed.of_alike (.refl s.store) halike

theorem fed_clear (hs : s.store.Tidy) : s.store.Fed now (s.clear streams now key).2.store :=
  (Store.ending streams now key _ hs).fed.of_alike (.refl s.store) (s.alike_clear streams now key)

theorem fed_evict (hs : s.store.Tidy) : s.store.Fed now (s.evict now key).2.store :=
  (Store.eviction hs now key).fed.of_alike (.refl s.store) (s.alike_evict now key)

end Service

namespace Site
variable {s t : Site}

/-- A change that is submitted now leaves a prompt writer prompt. -/
theorem Ready.setService (h : s.Ready) (streams : Streams) {service : Service}
    (hfed : s.service.store.Fed s.moment service.store) : ({ s with streams }.setService service).Ready := by
  obtain ⟨p, halone, hprompt, hrests⟩ := h
  have hset (p' : Pipeline) (hp' : service.pipeline? s.backend = some p') :=
    Alone.setServiceAt (s := { s with streams }) halone.retired (halone.line.imp_right And.left) service hp'
  have hcurrent : ({ s with streams } : Site).current = 0 := halone.current
  unfold Site.setService
  rw [hcurrent]
  rcases hfed with hsame | ⟨j, change, hj, hpush⟩
  · obtain ⟨hafter, hnow⟩ := hset ⟨p.journal, p.backend, service.store.monitor⟩
      (Service.pipeline?_eq_some.mpr ⟨hsame.trans halone.journal, halone.backend, rfl⟩)
    refine ⟨_, hafter, ?_, hrests⟩
    rw [hnow]
    exact ⟨hprompt.latency, hprompt.willing, hprompt.kept, hprompt.patience, hprompt.numbered, hprompt.failures,
      hprompt.unfiled, hprompt.freeAt, hprompt.submitted, hprompt.due⟩
  · obtain rfl : p.journal = j := Option.some.inj (halone.journal.symm.trans hj)
    obtain ⟨hafter, hnow⟩ := hset ⟨p.journal.push s.now change, p.backend, service.store.monitor⟩
      (Service.pipeline?_eq_some.mpr ⟨hpush, halone.backend, rfl⟩)
    refine ⟨_, hafter, ?_, hrests⟩
    rw [hnow]
    exact hprompt.push change service.store.monitor

/-- Two sites with parallel services, of which the first keeps a journal with a prompt writer, and the second none. -/
structure Twin (s t : Site) : Prop where
  streams : s.streams = t.streams
  service : s.service.Parallel s.streams t.service
  ready : s.Ready
  retired : t.retired = []
  unkept : t.service.store.journal = none

namespace Twin

/-- What parallel services do at twin sites makes them twins again. -/
theorem setService (h : s.Twin t) {streams : Streams} {service service' : Service} (hservice : service.Parallel streams service')
    (hfed : s.service.store.Fed s.moment service.store) (hfed' : t.service.store.Fed t.moment service'.store) :
    ({ s with streams }.setService service).Twin ({ t with streams }.setService service') := by
  obtain ⟨p, halone, -⟩ := id h.ready
  obtain ⟨line, log, hset⟩ := setServiceAt_eq (s := { s with streams }) halone.retired ({ s with streams } : Site).current service
  obtain ⟨line', log', hset'⟩ := setServiceAt_eq (s := { t with streams }) h.retired ({ t with streams } : Site).current service'
  have hready := h.ready.setService streams hfed
  unfold Site.setService at hready ⊢
  rw [hset] at hready ⊢
  rw [hset']
  refine ⟨rfl, hservice, hready, h.retired, ?_⟩
  rcases hfed' with hsame | ⟨j, change, hj, -⟩
  · exact hsame.trans h.unkept
  · exact absurd (hj.symm.trans h.unkept) (by simp)

theorem serviceAt (h : s.Twin t) (n : Nat) : s.serviceAt n = s.service ∧ t.serviceAt n = t.service := by
  obtain ⟨p, halone, -⟩ := id h.ready
  exact ⟨halone.serviceAt n, serviceAt_eq h.retired n⟩

theorem tidy (h : s.Twin t) : s.service.store.Tidy ∧ t.service.store.Tidy :=
  ⟨h.service.store.living.sound.tidy, h.service.store.living'.sound.tidy⟩

theorem fetch (h : s.Twin t) (key : Key) (intent : Intent) :
    (s.fetch key intent).1.map Response.untimed = (t.fetch key intent).1.map Response.untimed ∧
      (s.fetch key intent).2.Twin (t.fetch key intent).2 := by
  obtain ⟨hserved, hstreams, hservice⟩ := h.service.fetch s.moment t.moment key intent
  have hfed := Service.fed_fetch s.streams s.moment key h.tidy.1 intent
  have hfed' := Service.fed_fetch s.streams t.moment key h.tidy.2 intent
  have hafter := h.setService hservice hfed hfed'
  simp only [Site.fetch, ← h.streams]
  rw [hstreams] at hafter ⊢
  exact ⟨hserved, hafter⟩

/-- The streams stay as they are. -/
theorem replace (h : s.Twin t) {service service' : Service} (hservice : service.Parallel s.streams service')
    (hfed : s.service.store.Fed s.moment service.store) (hfed' : t.service.store.Fed t.moment service'.store) :
    (s.setService service).Twin (t.setService service') := by
  have hafter := h.setService hservice hfed hfed'
  have hsame : ({ t with streams := s.streams } : Site) = t := by rw [h.streams]
  rw [hsame] at hafter
  exact hafter

theorem clear (h : s.Twin t) (key : Key) :
    (s.clear key).1.map Entry.untimed = (t.clear key).1.map Entry.untimed ∧ (s.clear key).2.Twin (t.clear key).2 := by
  obtain ⟨hentered, hservice⟩ := h.service.clear s.moment t.moment key
  have hafter := h.replace hservice (Service.fed_clear s.streams s.moment key h.tidy.1)
    (Service.fed_clear s.streams t.moment key h.tidy.2)
  simp only [Site.clear, ← h.streams]
  exact ⟨hentered, hafter⟩

theorem evict (h : s.Twin t) (key : Key) : (s.evict key).1 = (t.evict key).1 ∧ (s.evict key).2.Twin (t.evict key).2 := by
  obtain ⟨hremoved, hservice⟩ := h.service.evict s.moment t.moment key
  exact ⟨hremoved, h.replace hservice (Service.fed_evict s.moment key h.tidy.1) (Service.fed_evict t.moment key h.tidy.2)⟩

/-- Streams may be written to, if those that have content keep it. -/
theorem setStreams (h : s.Twin t) {streams : Streams} (hk : s.streams.Keeps streams) :
    ({ s with streams } : Site).Twin { t with streams } := by
  obtain ⟨p, halone, hprompt, hrests⟩ := h.ready
  exact ⟨rfl, ⟨h.service.store.of_keeps hk, h.service.origin, h.service.config⟩,
    ⟨p, ⟨halone.retired, halone.pipeline, halone.line⟩, hprompt, hrests⟩, h.retired, h.unkept⟩

theorem openOutput (h : s.Twin t) {entry entry' : Entry} (hentry : entry.untimed = entry'.untimed) (label : String) :
    (s.openOutput s.current entry label).1 = (t.openOutput t.current entry' label).1 ∧
      (s.openOutput s.current entry label).2.Twin (t.openOutput t.current entry' label).2 := by
  have hkey : entry.key = entry'.key := (congrArg Entry.key hentry :)
  have hidentity : entry.identity = entry'.identity := (congrArg Entry.identity hentry :)
  simp only [Site.openOutput, (h.serviceAt _).1, (h.serviceAt _).2, Service.openOutput, ← h.streams, ← h.service.config,
    hkey, hidentity]
  exact ⟨trivial, h.setStreams (s.streams.keeps_add _)⟩

theorem writeOutput (h : s.Twin t) (o : Output) (bytes : Bytes) :
    (∃ e, s.writeOutput o bytes = .error e ∧ t.writeOutput o bytes = .error e) ∨
      ∃ s' t', s.writeOutput o bytes = .ok s' ∧ t.writeOutput o bytes = .ok t' ∧ s'.Twin t' := by
  simp only [Site.writeOutput, ← h.streams]
  cases hwrite : s.streams.write o.stream bytes with
  | error e => exact .inl ⟨e, rfl, rfl⟩
  | ok streams => exact .inr ⟨_, _, rfl, rfl, h.setStreams (Streams.keeps_write hwrite)⟩

theorem finish (h : s.Twin t) (o : Output) :
    (s.finish s.current o).1.map Entry.untimed = (t.finish t.current o).1.map Entry.untimed ∧
      (s.finish s.current o).2.Twin (t.finish t.current o).2 := by
  obtain ⟨hentered, hstreams, hservice⟩ := h.service.finish s.moment t.moment o
  have hfed := Service.fed_finish s.streams s.moment h.tidy.1 o
  have hfed' := Service.fed_finish s.streams t.moment h.tidy.2 o
  have hafter := h.setService hservice hfed hfed'
  simp only [Site.finish, (h.serviceAt _).1, (h.serviceAt _).2, ← h.streams]
  rw [hstreams] at hafter ⊢
  exact ⟨hentered, hafter⟩

/-- A flush goes well in both. -/
theorem flush (h : s.Twin t) : s.flush.1 = .ok () ∧ t.flush.1 = .ok () ∧ s.flush.2.Twin t.flush.2 := by
  obtain ⟨p, halone, hprompt, hrests⟩ := id h.ready
  obtain ⟨hok, hwritten, hready⟩ := halone.flush_of_prompt hprompt hrests
  obtain ⟨journal, monitor, hservice, hcounters⟩ := hwritten.service
  obtain ⟨line, log, hset⟩ := setServiceAt_eq h.retired t.current (t.service.count (·.countFlush ⟨0⟩))
  have hflush : t.flush = (.ok (), t.setService (t.service.count (·.countFlush ⟨0⟩))) := by
    unfold Site.flush
    rw [h.unkept]
  have hopen : ∀ j, journal = some j → j.accepting = true := by
    have hopen := hwritten.isOpen h.service.store.isOpen
    rw [hservice] at hopen
    exact hopen
  have hstore := h.service.store.of_journal hopen hcounters
  have hstore' : Store.Parallel _ { t.service.store with monitor := t.service.store.monitor.count (·.countFlush ⟨0⟩) } _ :=
    hstore.symm.of_journal h.service.store.isOpen' rfl
  rw [hflush, Site.setService, hset]
  refine ⟨hok, rfl, hwritten.streams.trans h.streams, ?_, hready, h.retired, h.unkept⟩
  rw [hservice, hwritten.streams]
  exact ⟨hstore'.symm, h.service.origin, h.service.config⟩

end Twin
end Site

/-- Two reports tell the same, but for the number of records that a flush tells of. -/
structure Report.Matches (report report' : Report) : Prop where
  common : { report with persistedRecords := none } = { report' with persistedRecords := none }
  equal : report.action ≠ "flush" → report = report'

theorem Report.Matches.refl (report : Report) : report.Matches report := ⟨rfl, fun _ => rfl⟩

/-- Responses that differ in times at most tell the client the same. -/
theorem Response.tells_of_untimed {response response' : Response} (h : response.untimed = response'.untimed) :
    response.body = response'.body ∧ response.alternativeLabel = response'.alternativeLabel ∧
      response.fromCache = response'.fromCache ∧ response.cacheEntryId = response'.cacheEntryId ∧
      response.identity = response'.identity ∧ response.decision = response'.decision :=
  ⟨(congrArg body h :), (congrArg alternativeLabel h :), (congrArg fromCache h :), (congrArg cacheEntryId h :),
    (congrArg identity h :), (congrArg decision h :)⟩

namespace Replayer

/-- Two replayers on twin sites that remember the same, but for the times in the last responses. -/
structure Twin (r r' : Replayer) : Prop where
  site : r.site.Twin r'.site
  last : ∀ key, (r.last.get? key).map Response.untimed = (r'.last.get? key).map Response.untimed
  remembered : r.remembered = r'.remembered

/-- Two answers are the same error, or both go well and have this in common. -/
def Agree {α : Type} (common : α → α → Prop) : Except Error α → Except Error α → Prop
  | .error e, .error e' => e = e'
  | .ok a, .ok a' => common a a'
  | _, _ => False

theorem agree_cases {α : Type} {common : α → α → Prop} {answer answer' : Except Error α} (h : Agree common answer answer') :
    (∃ e, answer = .error e ∧ answer' = .error e) ∨ ∃ a a', answer = .ok a ∧ answer' = .ok a' ∧ common a a' := by
  cases answer <;> cases answer'
  · exact .inl ⟨_, rfl, congrArg Except.error h.symm⟩
  · exact h.elim
  · exact h.elim
  · exact .inr ⟨_, _, rfl, rfl, h⟩

namespace Twin
variable {r r' : Replayer}

theorem setSite (h : r.Twin r') {s t : Site} (hsite : s.Twin t) : ({ r with site := s } : Replayer).Twin { r' with site := t } :=
  ⟨hsite, h.last, h.remembered⟩

/-- Expectations do not look at times. -/
theorem check (h : r.Twin r') (step : Nat) {response response' : Response} (hr : response.untimed = response'.untimed)
    (e : Expectation) : Agree Twin (r.check step response e) (r'.check step response' e) := by
  obtain ⟨hbody, hlabel, hcache, hid, hidentity, -⟩ := Response.tells_of_untimed hr
  have hcheck : r.checkCacheEntryId = r'.checkCacheEntryId := by
    funext step identity expectation
    cases expectation with
    | none => rfl
    | some expected =>
      cases expected <;> simp only [checkCacheEntryId, satisfies, rememberedAs, h.remembered]
  unfold Replayer.check
  rw [hbody, hlabel, hcache, hid, hidentity, hcheck]
  -- What is checked is the same in both now, so that the first check that fails ends both.
  rcases checkBody step response'.body e.body with _ | _
  · rfl
  rcases checkAlternativeType step (response'.alternativeLabel.getD "") e.alternativeType with _ | _
  · rfl
  rcases checkFromCache step response'.fromCache e.fromCache with _ | _
  · rfl
  simp only [bind, Except.bind]
  rcases r'.checkCacheEntryId step response'.cacheEntryId e.cacheEntryId with _ | _
  · rfl
  cases e.remember with
  | none => exact h
  | some name => exact ⟨h.site, h.last, congrArg (·.insert name response'.identity) h.remembered⟩

theorem expected (h : r.Twin r') (step : Nat) {response response' : Response} (hr : response.untimed = response'.untimed)
    (expect : Option Expectation) : Agree Twin (expect.elim (.ok r) (r.check step response))
      (expect.elim (.ok r') (r'.check step response')) := by
  cases expect with
  | none => exact h
  | some e => exact h.check step hr e

/-- A step ends alike in both: with the same error, or with reports that tell the same. -/
theorem fetch (h : r.Twin r') (n : Nat) (key : String) (prefer : Option String) (expect : Option Expectation) :
    Agree Report.Matches (r.fetch n key prefer expect).1 (r'.fetch n key prefer expect).1 ∧
      (r.fetch n key prefer expect).2.Twin (r'.fetch n key prefer expect).2 := by
  obtain ⟨hserved, hsite⟩ := h.site.fetch (.ofUri key) (prefer.elim .none .prefer)
  unfold Replayer.fetch
  generalize r.site.fetch (.ofUri key) _ = result at hserved hsite ⊢
  generalize r'.site.fetch (.ofUri key) _ = result' at hserved hsite ⊢
  obtain ⟨answer, site⟩ := result
  obtain ⟨answer', site'⟩ := result'
  have hfetched := h.setSite hsite
  rcases map_eq_map_cases hserved with ⟨e, rfl, rfl⟩ | ⟨response, response', rfl, rfl, hr⟩
  · exact ⟨rfl, hfetched⟩
  · have hchecked := hfetched.expected n hr expect
    simp only
    generalize expect.elim _ (Replayer.check _ n response) = checked at hchecked ⊢
    generalize expect.elim _ (Replayer.check _ n response') = checked' at hchecked ⊢
    rcases agree_cases hchecked with ⟨e, rfl, rfl⟩ | ⟨r₁, r₁', rfl, rfl, htwin⟩
    · exact ⟨rfl, hfetched⟩
    · obtain ⟨hbody, hlabel, hcache, hid, hidentity, hdecision⟩ := Response.tells_of_untimed hr
      simp only [hbody, hlabel, hcache, hid, hidentity, hdecision]
      refine ⟨.refl _, htwin.site, fun k => ?_, htwin.remembered⟩
      rw [Table.get?_insert, Table.get?_insert]
      by_cases hk : key = k
      · rw [if_pos hk, if_pos hk, Option.map_some, Option.map_some, hr]
      · rw [if_neg hk, if_neg hk, htwin.last]

theorem writeAlternative (h : r.Twin r') (n : Nat) (key label data : String) :
    Agree Report.Matches (r.writeAlternative n key label data).1 (r'.writeAlternative n key label data).1 ∧
      (r.writeAlternative n key label data).2.Twin (r'.writeAlternative n key label data).2 := by
  have hlast := h.last key
  unfold Replayer.writeAlternative
  cases hresponse : r.last.get? key with
  | none =>
    cases hresponse' : r'.last.get? key with
    | none => exact ⟨rfl, h⟩
    | some response' => simp [hresponse, hresponse'] at hlast
  | some response =>
    cases hresponse' : r'.last.get? key with
    | none => simp [hresponse, hresponse'] at hlast
    | some response' =>
      have hr : response.untimed = response'.untimed := by simpa [hresponse, hresponse'] using hlast
      have hentry : response.entry.untimed = response'.entry.untimed := (congrArg Response.entry hr :)
      -- The responses have the same entry but for its date, so both sites write for the same generation.
      obtain ⟨hopened, hsite⟩ := h.site.openOutput hentry label
      simp only
      generalize r.site.openOutput _ _ _ = opened at hopened hsite ⊢
      generalize r'.site.openOutput _ _ _ = opened' at hopened hsite ⊢
      obtain ⟨output, site⟩ := opened
      obtain ⟨output', site'⟩ := opened'
      obtain rfl : output = output' := hopened
      rcases hsite.writeOutput output (Text.toBytes data) with ⟨e, hwrite, hwrite'⟩ | ⟨s, t, hwrite, hwrite', hwritten⟩
      · simp only [hwrite, hwrite']
        exact ⟨rfl, h.setSite hsite⟩
      · obtain ⟨hentered, hfinished⟩ := hwritten.finish output
        simp only [hwrite, hwrite']
        generalize s.finish _ output = result at hentered hfinished ⊢
        generalize t.finish _ output = result' at hentered hfinished ⊢
        obtain ⟨answer, s'⟩ := result
        obtain ⟨answer', t'⟩ := result'
        refine ⟨?_, h.setSite hfinished⟩
        rcases map_eq_map_cases hentered with ⟨e, rfl, rfl⟩ | ⟨entry, entry', rfl, rfl, hentry⟩
        · rfl
        · have hidentity : entry.identity = entry'.identity := (congrArg Entry.identity hentry :)
          have hlabel : entry.alternativeLabel = entry'.alternativeLabel := (congrArg Entry.alternativeLabel hentry :)
          simp only [Except.map, hidentity, hlabel]
          exact .refl _

theorem flush (h : r.Twin r') (n : Nat) :
    Agree Report.Matches (r.flush n).1 (r'.flush n).1 ∧ (r.flush n).2.Twin (r'.flush n).2 := by
  obtain ⟨hok, hok', hsite⟩ := h.site.flush
  simp only [Replayer.flush, hok, hok', Except.map]
  exact ⟨⟨rfl, fun haction => absurd rfl haction⟩, h.setSite hsite⟩

theorem evict (h : r.Twin r') (n : Nat) (key : String) :
    Agree Report.Matches (r.evict n key).1 (r'.evict n key).1 ∧ (r.evict n key).2.Twin (r'.evict n key).2 := by
  obtain ⟨hremoved, hsite⟩ := h.site.evict (.ofUri key)
  simp only [Replayer.evict, hremoved]
  refine ⟨?_, h.setSite hsite⟩
  cases (r'.site.evict (.ofUri key)).1 with
  | error e => rfl
  | ok identity => exact .refl _

theorem clearAlternative (h : r.Twin r') (n : Nat) (key : String) :
    Agree Report.Matches (r.clearAlternative n key).1 (r'.clearAlternative n key).1 ∧
      (r.clearAlternative n key).2.Twin (r'.clearAlternative n key).2 := by
  obtain ⟨hentered, hsite⟩ := h.site.clear (.ofUri key)
  simp only [Replayer.clearAlternative]
  refine ⟨?_, h.setSite hsite⟩
  generalize (r.site.clear (.ofUri key)).1 = answer at hentered ⊢
  generalize (r'.site.clear (.ofUri key)).1 = answer' at hentered ⊢
  rcases map_eq_map_cases hentered with ⟨e, rfl, rfl⟩ | ⟨entry, entry', rfl, rfl, hentry⟩
  · rfl
  · have hidentity : entry.identity = entry'.identity := (congrArg Entry.identity hentry :)
    simp only [Except.map, hidentity]
    exact .refl _

theorem runStep (h : r.Twin r') (n : Nat) (step : Step) :
    Agree Report.Matches (r.runStep n step).1 (r'.runStep n step).1 ∧ (r.runStep n step).2.Twin (r'.runStep n step).2 := by
  cases step with
  | fetch key prefer expect => exact h.fetch n key prefer expect
  | writeAlternative key label data => exact h.writeAlternative n key label data
  | flush => exact h.flush n
  | evict key => exact h.evict n key
  | clearAlternative key => exact h.clearAlternative n key

theorem runSteps (steps : List Step) : ∀ {r r' : Replayer} (n : Nat), r.Twin r' →
    List.Forall₂ Report.Matches (runSteps n steps r).1.reports (runSteps n steps r').1.reports ∧
      (runSteps n steps r).1.failure = (runSteps n steps r').1.failure ∧
      (runSteps n steps r).2.Twin (runSteps n steps r').2 := by
  induction steps with
  | nil => exact fun n h => ⟨.nil, rfl, h⟩
  | cons step rest ih =>
    intro r r' n h
    obtain ⟨hreport, hnext⟩ := h.runStep n step
    unfold Replayer.runSteps
    generalize r.runStep n step = result at hreport hnext ⊢
    generalize r'.runStep n step = result' at hreport hnext ⊢
    obtain ⟨answer, r₁⟩ := result
    obtain ⟨answer', r₁'⟩ := result'
    rcases agree_cases hreport with ⟨e, rfl, rfl⟩ | ⟨report, report', rfl, rfl, hmatches⟩
    · exact ⟨.nil, rfl, hnext⟩
    · obtain ⟨hreports, hfailure, hlast⟩ := ih (n + 1) hnext
      exact ⟨.cons hmatches hreports, hfailure, hlast⟩

/-- The origin gets the same answers. -/
theorem script (h : r.Twin r') (answers : List ScriptedAnswer) : (r.script answers).Twin (r'.script answers) := by
  obtain ⟨p, halone, hprompt, hrests⟩ := id h.site.ready
  have horigin := congrArg (fun origin : Origin => answers.foldl (fun o a => o.push a.toAnswer) origin) h.site.service.origin
  exact ⟨⟨h.site.streams, ⟨h.site.service.store, horigin, h.site.service.config⟩,
    ⟨p, ⟨halone.retired, halone.pipeline, halone.line⟩, hprompt, hrests⟩, h.site.retired, h.site.unkept⟩, h.last,
    h.remembered⟩

end Twin

theorem twin_start {config : Config} (hconfig : config.validate = .ok ()) (now now' : Nat) :
    (start now config true).Twin (start now' config false) := by
  have hpatience : config.flushTimeout ≠ some ⟨0⟩ := by
    intro hzero
    unfold Config.validate at hconfig
    rw [hzero, if_pos rfl] at hconfig
    split at hconfig <;> exact absurd hconfig (by simp)
  let journal : Journal := { patience := config.flushTimeout, warnAbove := config.queueWarn }
  have hprompt : Pipeline.Prompt ⟨journal, {}, {}⟩ now :=
    ⟨rfl, rfl, rfl, hpatience, Journal.numbered_of_fresh rfl rfl rfl, rfl, rfl, Nat.zero_le now, by simp [journal],
      by simp [journal]⟩
  exact ⟨⟨rfl, Service.parallel_start config {} true false .nobody .nobody,
    ⟨_, ⟨rfl, rfl, .inl rfl⟩, hprompt, rfl⟩, rfl, rfl⟩, fun _ => rfl, rfl⟩

end Replayer

namespace System

/-- Persistence and observers are transparent. A system that keeps a journal over any backend and tells any observers, and one
that does neither, are given the same service operations, each at its own times, while the writer works, flushes end and the
backend is disturbed in any way. All results are the same but for times, and so are the live entries; the streams, the keys,
the number of entries, the mint, the origin with the questions it was asked, and the counters that are not about persistence
are the same. Under valid settings a replayer with persistence and one without give the same reports on any scenario, but for
the records that flushes tell of, end with the same error or none, and remember the same. -/
theorem persistence_and_observers_are_transparent (config : Config) :
    (∀ (origin : Origin) (publisher : Publisher) (backend : Backend) (plain kept : List Move),
      (∀ m ∈ plain, m.Served) → (∀ m ∈ kept, m.Served) → plain.filterMap command? = kept.filterMap command? →
      let y := start config false origin .nobody {}
      let z := start config true origin publisher backend
      (y.results plain).map Result.untimed = (z.results kept).map Result.untimed ∧
      (y.run plain).streams = (z.run kept).streams ∧
      (∀ key, ((y.run plain).store.live? key).map Entry.untimed = ((z.run kept).store.live? key).map Entry.untimed) ∧
      (y.run plain).store.keys.Perm (z.run kept).store.keys ∧ (y.run plain).store.count = (z.run kept).store.count ∧
      (y.run plain).store.mint = (z.run kept).store.mint ∧ (y.run plain).service.origin = (z.run kept).service.origin ∧
      (y.run plain).store.monitor.counters.steady = (z.run kept).store.monitor.counters.steady) ∧
    (config.validate = .ok () → ∀ (now now' : Nat) (scenario : Scenario),
      let plain := (Replayer.start now config false).run scenario
      let kept := (Replayer.start now' config true).run scenario
      List.Forall₂ Report.Matches kept.1.reports plain.1.reports ∧ kept.1.failure = plain.1.failure ∧
        kept.2.remembered = plain.2.remembered) := by
  refine ⟨?_, ?_⟩
  · intro origin publisher backend plain kept hplain hkept hsame y z
    obtain ⟨hrun, hresults⟩ := parallel_runs config origin publisher backend hplain hkept hsame
    have hstore := hrun.service.store
    exact ⟨hresults, hrun.streams, hstore.live, hstore.keys, hstore.count, hstore.mint, hrun.service.origin,
      hstore.counters⟩
  · intro hconfig now now' scenario plain kept
    have htwin := (Replayer.twin_start hconfig now' now).script scenario.origin
    obtain ⟨hreports, hfailure, hlast⟩ := Replayer.Twin.runSteps scenario.steps 1 htwin
    exact ⟨hreports, hfailure, hlast.remembered⟩

/-- The backend refuses the first record and every event is lost, which neither fetch and no eviction shows; and a scenario with
a flush in it is replayed. -/
theorem transparent_over_a_failing_backend : ∃ (y z : System) (plain kept : List Move) (scenario : Scenario),
    y = start {} false { script := [.full [120] "text/plain"] } .nobody {} ∧
    z = start {} true { script := [.full [120] "text/plain"] } (.broken .yaml) { failing := 1 } ∧
    plain = [.fetch ⟨0⟩ (.ofUri "/") .none, .fetch ⟨1⟩ (.ofUri "/") .none, .evict ⟨2⟩ (.ofUri "/")] ∧
    kept = [.fetch ⟨0⟩ (.ofUri "/") .none, .work .take, .work .apply, .work .file, .work .publish, .flush ⟨1, 0⟩ ⟨7⟩,
      .fetch ⟨8⟩ (.ofUri "/") .none, .evict ⟨9⟩ (.ofUri "/")] ∧
    scenario = { origin := [.full "x" "text/plain"], steps := [.fetch "/" none none, .flush, .evict "/"] } ∧
    (z.run kept).store.monitor.counters.persistenceFailures = 1 ∧
    (y.results plain).map Result.untimed = (z.results kept).map Result.untimed ∧
    (y.run plain).service.origin = (z.run kept).service.origin ∧
    ((Replayer.start 0 {} true).run scenario).1.failure = ((Replayer.start 0 {} false).run scenario).1.failure := by
  obtain ⟨plain, hplain⟩ : ∃ plain : List Move, plain = [.fetch ⟨0⟩ (.ofUri "/") .none, .fetch ⟨1⟩ (.ofUri "/") .none,
    .evict ⟨2⟩ (.ofUri "/")] := ⟨_, rfl⟩
  obtain ⟨kept, hkept⟩ : ∃ kept : List Move, kept = [.fetch ⟨0⟩ (.ofUri "/") .none, .work .take, .work .apply, .work .file,
    .work .publish, .flush ⟨1, 0⟩ ⟨7⟩, .fetch ⟨8⟩ (.ofUri "/") .none, .evict ⟨9⟩ (.ofUri "/")] := ⟨_, rfl⟩
  obtain ⟨hruns, hreplays⟩ := persistence_and_observers_are_transparent {}
  obtain ⟨hresults, -, -, -, -, -, horigin, -⟩ := hruns { script := [.full [120] "text/plain"] } (.broken .yaml)
    { failing := 1 } plain kept (by simp [hplain, Move.Served]) (by simp [hkept, Move.Served]) (by rw [hplain, hkept]; rfl)
  have hfailed : ((start {} true { script := [.full [120] "text/plain"] } (.broken .yaml) { failing := 1 }).run
      kept).store.monitor.counters.persistenceFailures = 1 := by
    rw [hkept, Key.ofUri_root]
    rfl
  exact ⟨_, _, plain, kept, _, rfl, rfl, hplain, hkept, rfl, hfailed, hresults, horigin, (hreplays rfl 0 0 _).2.1⟩

end System
end ResponseCache
