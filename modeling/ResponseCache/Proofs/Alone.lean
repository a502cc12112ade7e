import ResponseCache.Proofs.Journal.Turn
import ResponseCache.Site

namespace ResponseCache

theorem Service.pipeline?_eq_some {s : Service} {backend : Backend} {p : Pipeline} :
    s.pipeline? backend = some p ↔
      s.store.journal = some p.journal ∧ backend = p.backend ∧ s.store.monitor = p.monitor := by
  rw [pipeline?, Option.map_eq_some_iff]
  constructor
  · rintro ⟨j, hj, rfl⟩
    exact ⟨hj, rfl, rfl⟩
  · rintro ⟨hj, rfl, hmonitor⟩
    exact ⟨p.journal, hj, by rw [hmonitor]⟩

namespace Site

/-- The only service of a site has that journal, and its writer waits for its turn unless it is idle. -/
structure Alone (s : Site) (p : Pipeline) : Prop where
  retired : s.retired = []
  pipeline : s.service.pipeline? s.backend = some p
  line : s.line = [0] ∨ s.line = [] ∧ p.journal.isIdle = true

namespace Alone
variable {s : Site} {p p' : Pipeline}

theorem journal (h : s.Alone p) : s.service.store.journal = some p.journal :=
  (Service.pipeline?_eq_some.mp h.pipeline).1

theorem backend (h : s.Alone p) : s.backend = p.backend := (Service.pipeline?_eq_some.mp h.pipeline).2.1

theorem monitor (h : s.Alone p) : s.service.store.monitor = p.monitor := (Service.pipeline?_eq_some.mp h.pipeline).2.2

theorem serviceAt (h : s.Alone p) (n : Nat) : s.serviceAt n = s.service := by
  simp [Site.serviceAt, h.retired]

theorem current (h : s.Alone p) : s.current = 0 := by
  simp [Site.current, h.retired]

/-- The service is another one, with a writer that has something to do or not. -/
theorem setServiceAt (hretired : s.retired = []) (hline : s.line = [0] ∨ s.line = []) (service : Service)
    (hp : service.pipeline? s.backend = some p) :
    (s.setServiceAt 0 service).Alone p ∧ (s.setServiceAt 0 service).now = s.now := by
  have hj := (Service.pipeline?_eq_some.mp hp).1
  have hset : s.setServiceAt 0 service =
      { s with
        log := s.log ++ service.store.monitor.notices.drop s.service.store.monitor.notices.length
        line := if p.journal.isIdle then s.line else [0]
        service } := by
    simp only [Site.setServiceAt, Site.serviceAt, hretired, List.getElem?_nil, Option.getD_none, hj, Option.all_some]
    cases p.journal.isIdle with
    | true => rfl
    | false => rcases hline with hline | hline <;> simp [enqueue, hline]
  rw [hset]
  refine ⟨⟨hretired, hp, ?_⟩, rfl⟩
  cases hidle : p.journal.isIdle with
  | true => exact hline.imp_right fun hnil => ⟨hnil, rfl⟩
  | false => exact .inl rfl

/-- A round is a turn of the writer, unless that waits anyway. -/
theorem round_cases (h : s.Alone p) :
    ∃ p', s.round.Alone p' ∧ s.round.now = s.now ∧ (p' = p.turn s.now ∨ p' = p ∧ p.Waits s.now) := by
  rcases h.line with hline | ⟨hline, hidle⟩
  · have hround : s.round = s.turn 0 := by simp [Site.round, hline]
    by_cases hdue : p.journal.due?.any (s.now < ·) = true
    · have hsame : s.round = s := by
        rw [hround, Site.turn, h.serviceAt, h.pipeline]
        exact if_pos hdue
      rw [hsame]
      refine ⟨p, h, rfl, .inr ⟨rfl, .inr ?_⟩⟩
      cases hhand : p.journal.hand with
      | working item due => exact ⟨item, due, rfl, by simpa [Journal.due?, hhand] using hdue⟩
      | empty | settled item failure | filed item => simp [Journal.due?, hhand] at hdue
    · have hturned : s.round = { s with line := s.line.erase 0, backend := (p.turn s.now).backend }.setServiceAt 0
          (s.service.withPipeline (p.turn s.now)) := by
        rw [hround, Site.turn, h.serviceAt, h.pipeline]
        exact if_neg hdue
      have hset := setServiceAt (s := { s with line := s.line.erase 0, backend := (p.turn s.now).backend })
        (p := p.turn s.now) h.retired (by simp [hline]) (s.service.withPipeline (p.turn s.now)) rfl
      rw [hturned]
      exact ⟨p.turn s.now, hset.1, hset.2, .inl rfl⟩
  · have hround : s.round = s := by simp [Site.round, hline]
    rw [hround]
    exact ⟨p, h, rfl, .inr ⟨rfl, .inl hidle⟩⟩

/-- After a round the writer waits; it has done with what the backend was done with. -/
theorem round (h : s.Alone p) (hrests : p.journal.hand.rests = true) :
    ∃ steps, s.round.Alone (p.work steps) ∧ s.round.now = s.now ∧ (p.work steps).Waits s.now ∧
      (p.work steps).journal.underway.length ≤ p.journal.underway.length ∧
      ∀ item due, p.journal.hand = .working item due → due ≤ s.now →
        (p.work steps).journal.underway.length < p.journal.underway.length := by
  -- Of a turn only the steps are kept; how far they get is said beside them.
  obtain ⟨p', halone, hnow, rfl | ⟨rfl, hwaits⟩⟩ := h.round_cases
  · obtain ⟨hwaits, hle⟩ := Pipeline.waits_turn s.now hrests
    have hlt item due (hhand : p.journal.hand = .working item due) (hdue : due ≤ s.now) :=
      Pipeline.turn_progresses hhand hdue
    obtain ⟨steps, hsteps⟩ := Pipeline.exists_work_turn s.now p
    rw [hsteps] at halone hwaits hle hlt
    exact ⟨steps, halone, hnow, hwaits, hle, hlt⟩
  · refine ⟨[], halone, hnow, hwaits, Nat.le_refl _, ?_⟩
    intro item due hhand hdue
    rcases hwaits with hidle | ⟨item', due', hhand', hlater⟩
    · simp [(p'.journal.isIdle_iff.mp hidle).1] at hhand
    · rw [hhand', Hand.working.injEq] at hhand
      omega

/-- The next thing that falls due is what the backend works on. -/
theorem nextDue (h : s.Alone p) : s.nextDue = p.journal.due? := by
  rcases h.line with hline | ⟨hline, hidle⟩
  · simp only [Site.nextDue, Site.journals, hline, h.serviceAt, h.journal, List.filterMap_cons, List.filterMap_nil]
    cases p.journal.due? <;> rfl
  · have hnone : p.journal.due? = none := by simp [Journal.due?, (p.journal.isIdle_iff.mp hidle).1]
    rw [hnone]
    simp [Site.nextDue, Site.journals, hline]

/-- The changes underway are among those that are counted as outstanding. -/
theorem underway_le (h : s.Alone p) : p.journal.underway.length ≤ s.outstanding := by
  rcases h.line with hline | ⟨hline, hidle⟩
  · have hcount : s.outstanding = p.journal.queue.length + 1 := by
      simp [Site.outstanding, Site.journals, hline, h.serviceAt, h.journal]
    rw [hcount]
    exact Pipeline.length_underway_le p.journal
  · rw [Journal.underway_of_isIdle hidle]
    exact Nat.zero_le _

theorem isIdle (h : s.Alone p) : s.isIdle = p.journal.isIdle := by
  simp [Site.isIdle, h.journal]

theorem setNow (h : s.Alone p) (now : Nat) : ({ s with now } : Site).Alone p := ⟨h.retired, h.pipeline, h.line⟩

/-- However long one waits, it is some steps of the writer. -/
theorem run (stop : Site → Bool) (limit : Option Nat) (fuel : Nat) : ∀ {s : Site} {p : Pipeline}, s.Alone p →
    p.journal.hand.rests = true →
    ∃ steps, (Site.run stop limit fuel s).Alone (p.work steps) ∧ (p.work steps).journal.hand.rests = true := by
  induction fuel with
  | zero => exact fun h hrests => ⟨[], h, hrests⟩
  | succ fuel ih =>
    intro s p h hrests
    unfold Site.run
    split
    · exact ⟨[], h, hrests⟩
    · split
      · exact ⟨[], h, hrests⟩
      · rename_i due hdue
        split
        · obtain ⟨steps, halone, -, hwaits, -⟩ := (h.setNow (max s.now due)).round hrests
          obtain ⟨steps', halone', hrests'⟩ := ih halone hwaits.poised.rests
          rw [← Pipeline.work_append] at halone' hrests'
          exact ⟨steps ++ steps', halone', hrests'⟩
        · exact ⟨[], h, hrests⟩

theorem wait (h : s.Alone p) (hrests : p.journal.hand.rests = true) (stop : Site → Bool) (limit : Option Nat) :
    ∃ steps, (s.wait stop limit).Alone (p.work steps) ∧ (p.work steps).journal.hand.rests = true := by
  obtain ⟨steps, halone, -, hwaits, -⟩ := h.round hrests
  obtain ⟨steps', halone', hrests'⟩ := halone.run stop limit s.outstanding hwaits.poised.rests
  rw [← Pipeline.work_append] at halone' hrests'
  exact ⟨steps ++ steps', halone', hrests'⟩

/-- With every jump to the next due time one change fewer is underway, so the writer gets done with all of them. -/
theorem run_isIdle (fuel : Nat) : ∀ {s : Site} {p : Pipeline}, s.Alone p → p.Waits s.now →
    p.journal.underway.length ≤ fuel → (Site.run Site.isIdle none fuel s).isIdle = true := by
  -- On the fuel, which is at least the number of changes underway.
  induction fuel with
  | zero =>
    intro s p h _ hlength
    show s.isIdle = true
    rw [h.isIdle]
    exact Journal.isIdle_of_underway (List.eq_nil_of_length_eq_zero (Nat.le_zero.mp hlength))
  | succ fuel ih =>
    intro s p h hwaits hlength
    unfold Site.run
    rw [h.isIdle]
    rcases hwaits with hidle | ⟨item, due, hhand, hlater⟩
    · rw [if_pos hidle, h.isIdle]
      exact hidle
    · have hbusy : ¬p.journal.isIdle = true := by simp [Journal.isIdle, hhand]
      have hdue : s.nextDue = some due := by simp [h.nextDue, Journal.due?, hhand]
      rw [if_neg hbusy, hdue]
      simp only [Option.all_none, if_true]
      obtain ⟨steps, halone, hnow, hwaits, -, hlt⟩ := (h.setNow (max s.now due)).round (by simp [hhand, Hand.rests])
      have hless := hlt item due hhand (Nat.le_max_right _ _)
      refine ih halone ?_ (by omega)
      rw [hnow]
      exact hwaits

/-- One who waits until the writer is idle sees that. -/
theorem wait_isIdle (h : s.Alone p) (hrests : p.journal.hand.rests = true) : (s.wait Site.isIdle none).isIdle = true := by
  obtain ⟨steps, halone, hnow, hwaits, hle, -⟩ := h.round hrests
  have hfuel := h.underway_le
  exact halone.run_isIdle s.outstanding (hnow ▸ hwaits) (by omega)

theorem setJournal (h : s.Alone p) (j : Journal) : (s.setJournal j).Alone { p with journal := j } := by
  have hset := setServiceAt (s := s) (p := { p with journal := j }) h.retired (h.line.imp_right And.left)
    { s.service with store := { s.service.store with journal := some j } } (Service.pipeline?_eq_some.mpr ⟨rfl, h.backend, h.monitor⟩)
  rw [Site.setJournal, Site.setService, h.current]
  exact hset.1

/-- To stop the writer closes the journal; if that was open, the writer is idle afterwards. -/
theorem stop (h : s.Alone p) (hrests : p.journal.hand.rests = true) {close : Journal → Journal}
    (hclose : (close p.journal).hand = p.journal.hand) :
    ∃ steps, (s.stop close).Alone (Pipeline.work { p with journal := close p.journal } steps) ∧
      (Pipeline.work { p with journal := close p.journal } steps).journal.hand.rests = true ∧
      (p.journal.accepting = true →
        (Pipeline.work { p with journal := close p.journal } steps).journal.isIdle = true) := by
  have halone := h.setJournal (close p.journal)
  have hrests' : (close p.journal).hand.rests = true := by rw [hclose, hrests]
  unfold Site.stop
  rw [h.journal]
  simp only
  split
  · obtain ⟨steps, hwaited, hrested⟩ := halone.wait hrests' Site.isIdle none
    refine ⟨steps, hwaited, hrested, fun _ => ?_⟩
    rw [← hwaited.isIdle]
    exact halone.wait_isIdle hrests'
  · rename_i hclosed
    exact ⟨[], halone, hrests', fun hopen => absurd hopen hclosed⟩

theorem submit_of_closed (h : s.Alone p) (hclosed : p.journal.accepting = false) (change : Change) :
    s.submit change = (.error (.persistence "flush coordinator is shut down"), s) := by
  simp [Site.submit, Store.submit, h.journal, Journal.submit_of_not_accepting hclosed, bind, Except.bind]

/-- An open journal takes a change in under the next number. -/
theorem submit_of_open (h : s.Alone p) (hopen : p.journal.accepting = true) (change : Change) :
    ∃ site monitor, s.submit change = (.ok (p.journal.lastSeq + 1), site) ∧
      site.Alone ⟨p.journal.push s.now change, p.backend, monitor⟩ := by
  obtain ⟨store, monitor, hstore, hj, hm⟩ : ∃ store monitor, s.service.store.submit s.moment change = .ok store ∧
      store.journal = some (p.journal.push s.now change) ∧ store.monitor = monitor := by
    simp [Store.submit, h.journal, Journal.submit_of_accepting hopen, bind, Except.bind, pure, Except.pure, moment]
  have hset := setServiceAt (s := s) (p := ⟨p.journal.push s.now change, p.backend, monitor⟩) h.retired
    (h.line.imp_right And.left) { s.service with store } (Service.pipeline?_eq_some.mpr ⟨hj, h.backend, hm⟩)
  refine ⟨s.setServiceAt 0 { s.service with store }, monitor, ?_, hset.1⟩
  simp only [Site.submit, h.journal, hstore, Site.setService, h.current]

theorem poll_of_reached (h : s.Alone p) {b : Barrier} (hreached : p.journal.reached b = true) :
    s.poll s.current b = some (s.complete s.current p.journal b) := by
  simp [Site.poll, h.serviceAt, h.journal, hreached]

theorem poll_of_not_reached (h : s.Alone p) {b : Barrier} (hreached : p.journal.reached b = false)
    {answer : Except Error Unit} {site : Site} (hpoll : s.poll s.current b = some (answer, site)) : site = s := by
  simp only [Site.poll, h.serviceAt, h.journal, Option.bind_some, hreached, Bool.false_eq_true, if_false] at hpoll
  split at hpoll
  · split at hpoll
    · cases hpoll
      rfl
    · exact absurd hpoll (by simp)
  · exact absurd hpoll (by simp)

/-- A barrier that is reached collects failures, and no time passes. -/
theorem complete (h : s.Alone p) (b : Barrier) :
    (∃ monitor, (s.complete s.current p.journal b).2.Alone ⟨(p.journal.collect b).2, p.backend, monitor⟩) ∧
      (s.complete s.current p.journal b).2.now = s.now := by
  have hset := setServiceAt (s := s) (p := ⟨(p.journal.collect b).2, p.backend, _⟩) h.retired
    (h.line.imp_right And.left)
    ({ s.service with store := { s.service.store with journal := some (p.journal.collect b).2 } }.count
      (·.countFlush ⟨s.now - b.since⟩)) (by rw [← h.backend]; rfl)
  simp only [Site.complete, h.serviceAt, h.current]
  exact ⟨⟨_, hset.1⟩, hset.2⟩

end Alone
end Site
end ResponseCache
