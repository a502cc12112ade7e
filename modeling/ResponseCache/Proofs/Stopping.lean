import ResponseCache.Proofs.Alone
import ResponseCache.Proofs.Journal.Trace

namespace ResponseCache

/-- A site, with a record of what its journal has taken in and of the failures that were collected from it. -/
structure Diary where
  site : Site
  submitted : List Queued := []
  collected : List Failure := []

namespace Diary

/-- What may be done with a journal. Every act comes to its end before the next one. -/
inductive Act
  | submit (change : Change)
  /-- The next operations of the backend are to fail. -/
  | failNext (n : Nat)
  | wait (stop : Site → Bool) (limit : Option Nat)
  /-- The clock shows another time. -/
  | tick (now : Nat)
  /-- Looks whether a barrier is reached, and collects the failures in front of it then. -/
  | poll (b : Barrier)
  | shutdown
  | abort

/-- A new service with a journal, over any backend. -/
def start (now : Nat) (streams : Streams) (backend : Backend) (config : Config) (origin : Origin)
    (publisher : Publisher) : Diary :=
  { site := { now, streams, backend, service := .start config true origin publisher } }

def journal (d : Diary) : Journal := d.site.service.store.journal.getD {}

def step (d : Diary) : Act → Diary
  | .submit change =>
    match d.site.submit change with
    | (.ok seq, site) => { d with site, submitted := d.submitted ++ [⟨seq, change, d.site.now⟩] }
    | (.error _, site) => { d with site }
  | .failNext n => { d with site := { d.site with backend := d.site.backend.failNext n } }
  | .wait stop limit => { d with site := d.site.wait stop limit }
  | .tick now => { d with site := { d.site with now } }
  | .poll b =>
    match d.site.poll d.site.current b with
    | some (_, site) =>
      let left := ({ d with site } : Diary).journal.failures
      { d with site, collected := d.collected ++ d.journal.failures.filter fun f => f ∉ left }
    | none => d
  | .shutdown => { d with site := d.site.shutdown }
  | .abort => { d with site := d.site.abort }

def after (d : Diary) (acts : List Act) : Diary := acts.foldl step d

/-- All failures that the writer has filed so far. -/
def recorded (d : Diary) : List Failure := d.collected ++ d.journal.failures

/-- The changes that the writer is done with. -/
def ended (d : Diary) : List Queued := d.submitted.filter fun item => item.seq ≤ d.journal.committed

/-- Those of them that it has dropped, as is recorded of each. -/
def dropped (d : Diary) : List Queued := d.ended.filter fun item => item.aborted ∈ d.recorded

/-- The others. -/
def reached (d : Diary) : List Queued := d.ended.filter fun item => item.aborted ∉ d.recorded

theorem site_poll (d : Diary) (b : Barrier) :
    (d.step (.poll b)).site = ((d.site.poll d.site.current b).getD (.ok (), d.site)).2 := by
  simp only [step]
  cases d.site.poll d.site.current b <;> rfl

/-- A flush is no act of its own: it polls its barrier, and waits between polls. -/
theorem exists_acts_flush (d : Diary) {j : Journal} (hj : d.site.service.store.journal = some j) :
    ∃ acts, .shutdown ∉ acts ∧ .abort ∉ acts ∧ (d.after acts).site = d.site.flush.2 := by
  obtain ⟨b, hb⟩ : ∃ b, b = j.barrier d.site.now := ⟨_, rfl⟩
  obtain ⟨d', hd'⟩ : ∃ d', d' = d.step (.wait (Site.isReached b) (j.deadline? b)) := ⟨_, rfl⟩
  have hwaited : d.site.wait (Site.isReached b) (j.deadline? b) = d'.site := hd' ▸ rfl
  simp only [Site.flush, hj, ← hb, hwaited]
  cases hfirst : d.site.poll d.site.current b with
  | some answer =>
    refine ⟨[.poll b], by simp, by simp, ?_⟩
    show (d.step (.poll b)).site = answer.2
    rw [site_poll, hfirst]
    rfl
  | none =>
    cases hsecond : d'.site.poll d'.site.current b with
    | some answer =>
      refine ⟨[.wait (Site.isReached b) (j.deadline? b), .poll b], by simp, by simp, ?_⟩
      show ((d.step (.wait (Site.isReached b) (j.deadline? b))).step (.poll b)).site = answer.2
      rw [← hd', site_poll, hsecond]
      rfl
    | none =>
      refine ⟨[.wait (Site.isReached b) (j.deadline? b), .tick ((j.deadline? b).getD d'.site.now), .poll b],
        by simp, by simp, ?_⟩
      subst hd'
      exact site_poll ((d.step (.wait (Site.isReached b) (j.deadline? b))).step (.tick _)) b

/-- The site of a diary has one service, and the trace tells what its writer has done. A journal that takes nothing in has
nothing left to write. -/
structure Tells (first : Backend) (d : Diary) (t : Trace) (p : Pipeline) : Prop where
  alone : d.site.Alone p
  rests : p.journal.hand.rests = true
  traced : Traced first d.submitted (d.collected ++ p.journal.unreported) t p
  closed : p.journal.accepting = false → p.journal.isIdle = true

/-- What acts do to the state of a journal. -/
structure Leads (acts : List Act) (t : Trace) (p : Pipeline) (t' : Trace) (p' : Pipeline) : Prop where
  closed : p.journal.accepting = false → p'.journal.accepting = false ∧ t'.dropped = t.dropped
  kept : .abort ∉ acts → p'.journal.cancelled = p.journal.cancelled
  stops : .shutdown ∈ acts ∨ .abort ∈ acts → p'.journal.accepting = false

theorem Leads.trans {acts acts' : List Act} {t t' t'' : Trace} {p p' p'' : Pipeline} (h : Leads acts t p t' p')
    (h' : Leads acts' t' p' t'' p'') : Leads (acts ++ acts') t p t'' p'' where
  closed hclosed := by
    obtain ⟨hstill, hdropped⟩ := h.closed hclosed
    obtain ⟨hstill', hdropped'⟩ := h'.closed hstill
    exact ⟨hstill', hdropped'.trans hdropped⟩
  kept hkept := by
    rw [List.mem_append, not_or] at hkept
    exact (h'.kept hkept.2).trans (h.kept hkept.1)
  stops hstops := by
    simp only [List.mem_append] at hstops
    rcases hstops with (hfirst | hsecond) | (hfirst | hsecond)
    · exact (h'.closed (h.stops (.inl hfirst))).1
    · exact h'.stops (.inl hsecond)
    · exact (h'.closed (h.stops (.inr hfirst))).1
    · exact h'.stops (.inr hsecond)

/-- An act that does not stop the writer. -/
theorem Leads.of_going {a : Act} (hs : a ≠ .shutdown) (ha : a ≠ .abort) {t t' : Trace} {p p' : Pipeline}
    (haccepting : p'.journal.accepting = p.journal.accepting) (hcancelled : p'.journal.cancelled = p.journal.cancelled)
    (hdropped : p.journal.accepting = false → t'.dropped = t.dropped) : Leads [a] t p t' p' where
  closed hclosed := ⟨haccepting.trans hclosed, hdropped hclosed⟩
  kept _ := hcancelled
  stops hstops := by
    simp only [List.mem_singleton] at hstops
    exact absurd hstops (not_or.mpr ⟨hs.symm, ha.symm⟩)

/-- An act that stops the writer. -/
theorem Leads.of_stopping {a : Act} {t t' : Trace} {p p' : Pipeline} (hclosed : p'.journal.accepting = false)
    (hcancelled : a ≠ .abort → p'.journal.cancelled = p.journal.cancelled)
    (hdropped : p.journal.accepting = false → t'.dropped = t.dropped) : Leads [a] t p t' p' where
  closed h := ⟨hclosed, hdropped h⟩
  kept hkept := hcancelled fun ha => hkept (ha ▸ List.mem_cons_self)
  stops _ := hclosed

namespace Tells
variable {first : Backend} {d : Diary} {t : Trace} {p p' : Pipeline}

/-- The writer goes on for some steps. -/
theorem of_work (h : Tells first d t p) (d' : Diary) {steps : List WriterStep} (halone : d'.site.Alone (p.work steps))
    (hrests : (p.work steps).journal.hand.rests = true) (hsubmitted : d'.submitted = d.submitted)
    (hcollected : d'.collected = d.collected) :
    ∃ t', Tells first d' t' (p.work steps) ∧ (p.journal.accepting = false → t'.dropped = t.dropped) := by
  obtain ⟨t', htraced, hsame⟩ := h.traced.work steps
  obtain ⟨haccepting, -⟩ := Pipeline.work_keeps steps p
  refine ⟨t', ⟨halone, hrests, ?_, ?_⟩, fun hclosed => by rw [hsame (h.closed hclosed)]⟩
  · rw [hsubmitted, hcollected]
    exact htraced
  · intro hclosed
    rw [haccepting] at hclosed
    rw [Pipeline.work_of_isIdle (h.closed hclosed)]
    exact h.closed hclosed

/-- The journal is closed, and its writer stops. -/
theorem stop (h : Tells first d t p) (close : Journal → Journal) (hn : (close p.journal).Numbered)
    (hlast : (close p.journal).lastSeq = p.journal.lastSeq) (hhand : (close p.journal).hand = p.journal.hand)
    (hqueue : (close p.journal).queue = p.journal.queue) (hfailures : (close p.journal).failures = p.journal.failures)
    (haccepting : (close p.journal).accepting = false)
    (hcancelled : p.journal.cancelled = true → (close p.journal).cancelled = true) :
    ∃ t' p', Tells first { d with site := d.site.stop close } t' p' ∧ p'.journal.accepting = false ∧
      p'.journal.cancelled = (close p.journal).cancelled ∧ (p.journal.accepting = false → t'.dropped = t.dropped) := by
  obtain ⟨steps, halone, hrests, hidle⟩ := h.alone.stop h.rests hhand
  have hshut : Traced first d.submitted (d.collected ++ (close p.journal).unreported) t
      { p with journal := close p.journal } := by
    refine h.traced.of_same hn hlast ?_ rfl ?_ hcancelled fun _ hopen => hhand ▸ hopen
    · simp only [Journal.awaiting, hhand, hqueue]
    · simp only [Journal.unreported, hhand, hfailures, implies_true]
  obtain ⟨t', htraced, hsame⟩ := Traced.work (p := { p with journal := close p.journal }) steps hshut
  obtain ⟨hshut', hcancelled'⟩ := Pipeline.work_keeps steps { p with journal := close p.journal }
  have hstill : p.journal.accepting = false → (close p.journal).isIdle = true := by
    intro hclosed
    rw [Journal.isIdle, hhand, hqueue]
    exact h.closed hclosed
  refine ⟨t', _, ⟨halone, hrests, htraced, fun _ => ?_⟩, hshut'.trans haccepting, hcancelled', ?_⟩
  · cases hopen : p.journal.accepting with
    | true => exact hidle hopen
    | false =>
      rw [Pipeline.work_of_isIdle (hstill hopen)]
      exact hstill hopen
  · intro hclosed
    rw [hsame (hstill hclosed)]

/-- The failures that a poll takes out of the journal are recorded as collected. -/
theorem poll (h : Tells first d t p) (b : Barrier) :
    ∃ p', Tells first (d.step (.poll b)) t p' ∧ p'.journal.accepting = p.journal.accepting ∧
      p'.journal.cancelled = p.journal.cancelled := by
  -- What is collected moves from one list to the other; a poll that is too early or too late moves nothing.
  cases hreached : p.journal.reached b with
  | true =>
    obtain ⟨⟨monitor, halone⟩, -⟩ := h.alone.complete b
    have hstep : d.step (.poll b) =
        ⟨(d.site.complete d.site.current p.journal b).2, d.submitted,
          d.collected ++ p.journal.failures.filter fun f => f ∉ (p.journal.collect b).2.failures⟩ := by
      simp only [step, h.alone.poll_of_reached hreached, journal, h.alone.journal, halone.journal, Option.getD_some]
    rw [hstep]
    refine ⟨_, ⟨halone, h.rests, ?_, h.closed⟩, rfl, rfl⟩
    refine h.traced.of_same (h.traced.numbered.of_underway rfl rfl rfl) rfl rfl rfl ?_ id fun _ hopen => hopen
    intro f
    simp only [Journal.unreported, Journal.collect, List.mem_append, List.mem_filter]
    by_cases hf : f ∈ p.journal.failures <;> by_cases hle : f.seq ≤ b.target <;> simp [hf, hle]
  | false =>
    have hstep : d.step (.poll b) = d := by
      simp only [step]
      split
      · rename_i answer site hpoll
        have hsite := h.alone.poll_of_not_reached hreached hpoll
        subst hsite
        have hnone : d.journal.failures.filter (fun f => f ∉ d.journal.failures) = [] := by
          rw [List.filter_eq_nil_iff]
          intro f hf
          simpa using hf
        show ({ d with collected := d.collected ++ d.journal.failures.filter fun f => f ∉ d.journal.failures } : Diary) = d
        rw [hnone, List.append_nil]
      · rfl
    rw [hstep]
    exact ⟨p, h, rfl, rfl⟩

theorem step (h : Tells first d t p) (a : Act) :
    ∃ t' p', Tells first (d.step a) t' p' ∧ Leads [a] t p t' p' := by
  cases a with
  | submit change =>
    cases haccepting : p.journal.accepting with
    | true =>
      obtain ⟨site, monitor, hsubmit, halone⟩ := h.alone.submit_of_open haccepting change
      simp only [Diary.step, hsubmit]
      refine ⟨t, _, ⟨halone, h.rests, h.traced.push d.site.now change monitor, ?_⟩, ?_⟩
      · intro hclosed
        exact absurd (haccepting.symm.trans hclosed) (by simp)
      · exact .of_going (by simp) (by simp) rfl rfl fun _ => rfl
    | false =>
      simp only [Diary.step, h.alone.submit_of_closed haccepting change]
      exact ⟨t, p, h, .of_going (by simp) (by simp) rfl rfl fun _ => rfl⟩
  | failNext n =>
    have halone : (d.step (.failNext n)).site.Alone { p with backend := p.backend.failNext n } := by
      refine ⟨h.alone.retired, Service.pipeline?_eq_some.mpr ⟨h.alone.journal, ?_, h.alone.monitor⟩, h.alone.line⟩
      exact congrArg (·.failNext n) h.alone.backend
    exact ⟨_, _, ⟨halone, h.rests, h.traced.failNext n, h.closed⟩, .of_going (by simp) (by simp) rfl rfl fun _ => rfl⟩
  -- While time goes by the writer works, and drops changes only if it was cancelled.
  | wait stop limit =>
    obtain ⟨steps, halone, hrests⟩ := h.alone.wait h.rests stop limit
    obtain ⟨t', htells, hdropped⟩ := h.of_work (d.step (.wait stop limit)) halone hrests rfl rfl
    obtain ⟨haccepting, hcancelled⟩ := Pipeline.work_keeps steps p
    exact ⟨t', _, htells, .of_going (by simp) (by simp) haccepting hcancelled hdropped⟩
  | tick now =>
    exact ⟨t, p, ⟨h.alone.setNow now, h.rests, h.traced, h.closed⟩, .of_going (by simp) (by simp) rfl rfl fun _ => rfl⟩
  | poll b =>
    obtain ⟨p', htells, haccepting, hcancelled⟩ := h.poll b
    exact ⟨t, p', htells, .of_going (by simp) (by simp) haccepting hcancelled fun _ => rfl⟩
  | shutdown =>
    have hn : p.journal.close.Numbered := h.traced.numbered.of_underway rfl rfl rfl
    obtain ⟨t', p', htells, hclosed, hcancelled, hdropped⟩ := h.stop .close hn rfl rfl rfl rfl rfl id
    exact ⟨t', p', htells, .of_stopping hclosed (fun _ => hcancelled) hdropped⟩
  | abort =>
    have hn : p.journal.cancel.Numbered := h.traced.numbered.of_underway rfl rfl rfl
    obtain ⟨t', p', htells, hclosed, -, hdropped⟩ := h.stop .cancel hn rfl rfl rfl rfl rfl fun _ => rfl
    exact ⟨t', p', htells, .of_stopping hclosed (fun hne => absurd rfl hne) hdropped⟩

theorem after (acts : List Act) : ∀ {d : Diary} {t : Trace} {p : Pipeline}, Tells first d t p →
    ∃ t' p', Tells first (d.after acts) t' p' ∧ Leads acts t p t' p' := by
  induction acts with
  | nil => exact fun h => ⟨_, _, h, ⟨fun hclosed => ⟨hclosed, rfl⟩, fun _ => rfl, by simp⟩⟩
  | cons a rest ih =>
    intro d t p h
    obtain ⟨t', p', htells, hleads⟩ := h.step a
    obtain ⟨t'', p'', htells', hleads'⟩ := ih htells
    exact ⟨t'', p'', htells', hleads.trans hleads'⟩

theorem journal (h : Tells first d t p) : d.site.service.store.journal = some d.journal ∧ d.journal = p.journal := by
  have hj := h.alone.journal
  have heq : d.journal = p.journal := by rw [Diary.journal, hj, Option.getD_some]
  exact ⟨heq ▸ hj, heq⟩

theorem recorded (h : Tells first d t p) : d.recorded = d.collected ++ p.journal.unreported := by
  rw [Diary.recorded, h.journal.2, Journal.unreported_of_rests h.rests]

theorem ended (h : Tells first d t p) : d.ended = t.reached ++ t.dropped := by
  rw [Diary.ended, h.journal.2]
  exact h.traced.filter_committed h.rests

/-- What is recorded tells apart what was dropped from what reached the backend. -/
theorem reached_and_dropped (h : Tells first d t p) : d.reached = t.reached ∧ d.dropped = t.dropped := by
  have hreached : ∀ item ∈ t.reached, item.aborted ∉ d.recorded := by
    rw [h.recorded]
    exact fun item hitem => h.traced.aborted_not_mem hitem
  have hdropped : ∀ item ∈ t.dropped, item.aborted ∈ d.recorded := by
    rw [h.recorded]
    exact h.traced.skipped
  constructor
  · rw [Diary.reached, h.ended, List.filter_append, List.filter_eq_self.mpr (by simpa using hreached),
      List.filter_eq_nil_iff.mpr (by simpa using hdropped), List.append_nil]
  · rw [Diary.dropped, h.ended, List.filter_append, List.filter_eq_nil_iff.mpr (by simpa using hreached),
      List.filter_eq_self.mpr (by simpa using hdropped), List.nil_append]

/-- What was dropped has failed, so that the backend holds the changes that have ended and did not fail. -/
theorem unfailed_ended (h : Tells first d t p) : unfailed d.recorded d.ended = unfailed d.recorded t.reached := by
  have hdropped : unfailed d.recorded t.dropped = [] := by
    rw [List.eq_nil_iff_forall_not_mem]
    intro item hitem
    obtain ⟨hmem, hnone⟩ := mem_unfailed.mp hitem
    have haborted := h.traced.skipped item hmem
    rw [← h.recorded] at haborted
    exact hnone item.aborted haborted rfl
  rw [h.ended]
  unfold unfailed at hdropped ⊢
  rw [List.filter_append, hdropped, List.append_nil]

/-- A journal that takes nothing in is written to its end, and every barrier of it is reached. -/
theorem stopped (h : Tells first d t p) (hclosed : p.journal.accepting = false) :
    d.journal.committed = d.journal.lastSeq ∧ d.ended = d.submitted ∧
      (∀ change, d.site.submit change = (.error (.persistence "flush coordinator is shut down"), d.site)) ∧
      d.site.flush = d.site.complete d.site.current d.journal (d.journal.barrier d.site.now) ∧
      d.site.flush.2.now = d.site.now := by
  -- Nothing is underway, so the last number is committed and a new barrier is reached from the start.
  have hnothing := Journal.underway_of_isIdle (h.closed hclosed)
  have hcommitted : p.journal.committed = p.journal.lastSeq := by
    have hlength := h.traced.numbered.length_underway
    have hle := h.traced.numbered.le
    rw [hnothing, List.length_nil, Journal.pending] at hlength
    omega
  have hended : d.ended = d.submitted := by
    have horder := h.traced.order
    rw [Journal.awaiting_of_rests h.rests, hnothing, List.append_nil, ← h.ended] at horder
    exact horder.symm
  have hreached : p.journal.reached (p.journal.barrier d.site.now) = true := by
    simp [Journal.reached, Journal.barrier, hcommitted]
  have hflush : d.site.flush = d.site.complete d.site.current p.journal (p.journal.barrier d.site.now) := by
    simp only [Site.flush, h.alone.journal, h.alone.poll_of_reached hreached]
  rw [h.journal.2]
  refine ⟨hcommitted, hended, h.alone.submit_of_closed hclosed, hflush, ?_⟩
  rw [hflush]
  exact (h.alone.complete _).2

end Tells

theorem tells_start (now : Nat) (streams : Streams) (backend : Backend) (config : Config) (origin : Origin)
    (publisher : Publisher) : ∃ p, Tells backend (start now streams backend config origin publisher) {} p ∧
      p.journal.cancelled = false :=
  ⟨⟨{ patience := config.flushTimeout, warnAbove := config.queueWarn }, backend, {}⟩,
    { alone := ⟨rfl, rfl, .inl rfl⟩
      rests := rfl
      traced := ⟨Journal.numbered_of_fresh rfl rfl rfl, rfl, rfl, rfl, rfl, rfl, by simp, by simp,
        by simp [Journal.unreported, start], by simp⟩
      closed := fun _ => rfl }, rfl⟩

/-- A journal is written in the order of its numbers, and it is stopped cleanly. At any time, the backend holds what the
changes that have ended and are not recorded as failed make of its first records, so that a key shows the last of them that
is about it. The changes that have ended are some that reached the backend, one after the other and with nothing between
them but orders to fail, and some behind them that were dropped and never touched it. After a shutdown that no abort went
before, none was dropped. After a shutdown or an abort all changes have ended, none is taken in any more, and a flush
returns at once. -/
theorem written_in_order_until_stopped (now : Nat) (streams : Streams) (backend : Backend) (config : Config)
    (origin : Origin) (publisher : Publisher) (acts : List Act) :
    let d := (start now streams backend config origin publisher).after acts
    let lasting := (unfailed d.recorded d.ended).map (·.change)
    d.site.service.store.journal = some d.journal ∧
    d.submitted.map (·.seq) = List.range' 1 d.journal.lastSeq ∧
    d.site.backend.records = lasting.foldl Change.applyTo backend.records ∧
    (∀ key, d.site.backend.records.get? key =
      ((lasting.filter fun change => change.key = key).getLast?.map Change.record?).getD (backend.records.get? key)) ∧
    d.ended = d.reached ++ d.dropped ∧
    (∃ seen, d.site.backend = backend.run seen ∧
      seen.filter (fun op => !op.isFailNext) = d.reached.map fun item => .change item.change) ∧
    (∀ item ∈ d.reached, ∀ f ∈ d.recorded, f.seq = item.seq → f.reason = item.change.refusal) ∧
    (∀ before more, acts = before ++ .shutdown :: more → .abort ∉ before → d.dropped = []) ∧
    (.shutdown ∈ acts ∨ .abort ∈ acts →
      d.journal.committed = d.journal.lastSeq ∧ d.ended = d.submitted ∧
      (∀ change, d.site.submit change = (.error (.persistence "flush coordinator is shut down"), d.site)) ∧
      d.site.flush = d.site.complete d.site.current d.journal (d.journal.barrier d.site.now) ∧
      d.site.flush.2.now = d.site.now) := by
  intro d lasting
  obtain ⟨p₀, hstart, hkept⟩ := tells_start now streams backend config origin publisher
  obtain ⟨t, p, htells, hleads⟩ := hstart.after acts
  obtain ⟨hreached, hdropped⟩ := htells.reached_and_dropped
  have hrecords : d.site.backend.records = lasting.foldl Change.applyTo backend.records := by
    show _ = ((unfailed d.recorded d.ended).map (·.change)).foldl Change.applyTo backend.records
    rw [htells.alone.backend, htells.unfailed_ended, htells.recorded]
    exact htells.traced.records
  refine ⟨htells.journal.1, ?_, hrecords, ?_, ?_, ⟨t.seen, ?_, ?_⟩, ?_, ?_, fun hstops => htells.stopped (hleads.stops hstops)⟩
  · rw [htells.journal.2]
    exact htells.traced.seqs
  · intro key
    rw [hrecords]
    exact Change.get?_foldl_applyTo lasting backend.records key
  · rw [hreached, hdropped]
    exact htells.ended
  · exact htells.alone.backend.trans htells.traced.backend
  · rw [hreached]
    exact htells.traced.seen
  · rw [hreached, htells.recorded]
    exact htells.traced.refused
  · rintro before more hacts habort
    -- Up to the shutdown nothing cancels the journal, so nothing is dropped, and behind it nothing waits.
    obtain ⟨t₁, p₁, htells₁, hleads₁⟩ := hstart.after (before ++ [.shutdown])
    obtain ⟨t₂, p₂, htells₂, hleads₂⟩ := htells₁.after more
    have hnone : t₁.dropped = [] := by
      by_contra hsome
      have hcancelled := (htells₁.traced.last hsome).1
      rw [hleads₁.kept (by simpa using habort), hkept] at hcancelled
      exact absurd hcancelled (by simp)
    have hsame : ((start now streams backend config origin publisher).after (before ++ [.shutdown])).after more = d := by
      show _ = (start now streams backend config origin publisher).after acts
      rw [hacts, after, after, after, ← List.foldl_append, List.append_assoc]
      rfl
    rw [hsame] at htells₂
    rw [htells₂.reached_and_dropped.2, (hleads₂.closed (hleads₁.stops (by simp))).2, hnone]

/-- Of two changes, an abort brings only the one to the backend that the writer has taken before. -/
example :
    let d := (start 0 {} { latency := ⟨5⟩ } {} {} .nobody).after
      [.submit (.remove (.ofUri "/a")), .submit (.remove (.ofUri "/b")), .wait (fun _ => true) none, .abort]
    d.reached.map (·.seq) = [1] ∧ d.dropped.map (·.seq) = [2] := by decide

end Diary
end ResponseCache
