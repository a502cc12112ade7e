import ResponseCache.Proofs.Alone
import ResponseCache.Proofs.System

namespace ResponseCache

namespace System

/-- Steps of the writer leave everything but its pipeline alone. -/
theorem run_work (steps : List WriterStep) : ∀ {y : System} {p : Pipeline}, y.service.pipeline? y.backend = some p →
    y.run (steps.map .work) =
      { y with backend := (p.work steps).backend, service := y.service.withPipeline (p.work steps) } := by
  induction steps with
  | nil =>
    intro y p hp
    obtain ⟨hj, hbackend, hmonitor⟩ := Service.pipeline?_eq_some.mp hp
    obtain ⟨streams, backend, service⟩ := y
    obtain rfl : backend = p.backend := hbackend
    show (⟨streams, p.backend, service⟩ : System) = ⟨streams, p.backend, service.withPipeline p⟩
    rw [Service.withPipeline, ← hj, ← hmonitor]
  | cons step rest ih =>
    intro y p hp
    have hstep : y.step (.work step) =
        { y with backend := (p.step step).backend, service := y.service.withPipeline (p.step step) } := by
      simp only [System.step, hp]
    show (y.step (.work step)).run (rest.map .work) = _
    rw [ih (p := p.step step) (by rw [hstep]; rfl), hstep]
    rfl

theorem run_work_of_none {y : System} (hp : y.service.pipeline? y.backend = none) (steps : List WriterStep) :
    y.run (steps.map .work) = y := by
  induction steps with
  | nil => rfl
  | cons step rest ih =>
    have hstep : y.step (.work step) = y := by simp only [System.step, hp]
    show (y.step (.work step)).run (rest.map .work) = y
    rw [hstep, ih]

end System

namespace Site

/-- What lives at a site with one service. -/
def system (s : Site) : System := ⟨s.streams, s.backend, s.service⟩

/-- Puts a system in the place of the one at the site. -/
def put (s : Site) (y : System) : Site := { s with streams := y.streams, backend := y.backend }.setService y.service

/-- On the way to the second site the system has made these moves, and no other service was started. -/
structure Makes (s : Site) (moves : List System.Move) (s' : Site) : Prop where
  retired : s'.retired = []
  system : s'.system = s.system.run moves

/-- On the way to the second site the writer has worked, and nothing else has happened to the system. -/
def Works (s s' : Site) : Prop := ∃ steps : List WriterStep, s.Makes (steps.map .work) s'

/-- On the way to the second site the system has made ordinary moves only. -/
def Goes (s s' : Site) : Prop := ∃ moves, (∀ m ∈ moves, m.Ordinary) ∧ s.Makes moves s'

section
variable {s s' s'' : Site} {moves moves' : List System.Move}

theorem Makes.trans (h : s.Makes moves s') (h' : s'.Makes moves' s'') : s.Makes (moves ++ moves') s'' :=
  ⟨h'.retired, by rw [h'.system, h.system, System.run_append]⟩

/-- What does not touch streams, backend and service does not touch the system. -/
theorem Makes.nothing (hretired : s'.retired = []) (h : s'.system = s.system) : s.Makes [] s' := ⟨hretired, h⟩

theorem Makes.goes {m : System.Move} (h : s.Makes [m] s') (hm : m.Ordinary) : s.Goes s' :=
  ⟨[m], fun _ hmem => List.mem_singleton.mp hmem ▸ hm, h⟩

theorem Goes.refl (hretired : s.retired = []) : s.Goes s := ⟨[], by simp, .nothing hretired rfl⟩

theorem Goes.trans (h : s.Goes s') (h' : s'.Goes s'') : s.Goes s'' := by
  obtain ⟨moves, hmoves, hmakes⟩ := h
  obtain ⟨moves', hmoves', hmakes'⟩ := h'
  exact ⟨moves ++ moves', List.forall_mem_append.mpr ⟨hmoves, hmoves'⟩, hmakes.trans hmakes'⟩

theorem Works.refl (hretired : s.retired = []) : s.Works s := ⟨[], .nothing hretired rfl⟩

theorem Works.trans (h : s.Works s') (h' : s'.Works s'') : s.Works s'' := by
  obtain ⟨steps, hmakes⟩ := h
  obtain ⟨steps', hmakes'⟩ := h'
  exact ⟨steps ++ steps', by rw [List.map_append]; exact hmakes.trans hmakes'⟩

theorem Works.retired (h : s.Works s') : s'.retired = [] := by
  obtain ⟨steps, hmakes⟩ := h
  exact hmakes.retired

theorem Works.setNow (h : s.Works s') (now : Nat) : s.Works { s' with now } := h.trans ⟨[], .nothing h.retired rfl⟩

theorem Works.goes (h : s.Works s') : s.Goes s' := by
  obtain ⟨steps, hmakes⟩ := h
  refine ⟨steps.map .work, ?_, hmakes⟩
  intro m hm
  obtain ⟨step, -, rfl⟩ := List.mem_map.mp hm
  trivial

theorem Goes.retired (h : s.Goes s') : s'.retired = [] := by
  obtain ⟨moves, -, hmakes⟩ := h
  exact hmakes.retired

theorem Goes.setNow (h : s.Goes s') (now : Nat) : s.Goes { s' with now } := h.trans ⟨[], by simp, .nothing h.retired rfl⟩

theorem serviceAt_eq (hretired : s.retired = []) (n : Nat) : s.serviceAt n = s.service := by
  simp [serviceAt, hretired]

/-- To put a service in its place touches neither the streams nor the backend, nor the clock. -/
theorem setServiceAt_eq (hretired : s.retired = []) (n : Nat) (service : Service) :
    ∃ line log, s.setServiceAt n service = { s with service, line, log } := by
  simp only [setServiceAt, hretired]
  split
  · exact ⟨_, _, rfl⟩
  · unfold enqueue
    split <;> exact ⟨_, _, rfl⟩

/-- A service that is put in its place is one move further on. -/
theorem makes_setServiceAt (hretired : s.retired = []) (n : Nat) {m : System.Move} {service : Service}
    (h : s'.system.step m = ⟨s.streams, s.backend, service⟩) : s'.Makes [m] (s.setServiceAt n service) := by
  obtain ⟨line, log, hset⟩ := setServiceAt_eq hretired n service
  rw [hset]
  exact ⟨hretired, h.symm⟩

theorem makes_put (hretired : s.retired = []) (m : System.Move) : s.Makes [m] (s.put (s.system.step m)) :=
  makes_setServiceAt (s := { s with streams := (s.system.step m).streams, backend := (s.system.step m).backend }) hretired _ rfl

theorem goes_fetch (hretired : s.retired = []) (key : Key) (intent : Intent) : s.Goes (s.fetch key intent).2 :=
  (makes_put hretired (.fetch s.moment key intent)).goes trivial

theorem goes_clear (hretired : s.retired = []) (key : Key) : s.Goes (s.clear key).2 :=
  (makes_put hretired (.clear s.moment key)).goes trivial

theorem goes_evict (hretired : s.retired = []) (key : Key) : s.Goes (s.evict key).2 :=
  (makes_put hretired (.evict s.moment key)).goes trivial

theorem goes_openOutput (hretired : s.retired = []) (n : Nat) (entry : Entry) (label : String) :
    s.Goes (s.openOutput n entry label).2 := by
  refine Makes.goes (m := .openStream { contentType := label, limit := s.service.config.maxStreamBytes }) ⟨hretired, ?_⟩
    trivial
  simp only [Site.openOutput, serviceAt_eq hretired]
  rfl

theorem goes_writeOutput (hretired : s.retired = []) {o : Output} {bytes : Bytes} (h : s.writeOutput o bytes = .ok s') :
    s.Goes s' := by
  simp only [Site.writeOutput] at h
  cases hwrite : s.streams.write o.stream bytes with
  | error e => rw [hwrite] at h; exact absurd h (by simp [Except.map])
  | ok streams =>
    rw [hwrite] at h
    obtain rfl := Except.ok.inj h
    refine Makes.goes (m := .writeStream o.stream bytes) ⟨hretired, ?_⟩ trivial
    show (⟨streams, s.backend, s.service⟩ : System) = s.system.step (.writeStream o.stream bytes)
    simp only [System.step, system, hwrite]
    rfl

theorem goes_finish (hretired : s.retired = []) (n : Nat) (o : Output) : s.Goes (s.finish n o).2 := by
  simp only [Site.finish, serviceAt_eq hretired]
  refine Makes.goes (m := .finish s.moment o) ?_ trivial
  exact makes_setServiceAt (s := { s with streams := (s.service.finish s.streams s.moment o).2.1 }) hretired n rfl

theorem works_turn (hretired : s.retired = []) (n : Nat) : s.Works (s.turn n) := by
  unfold turn
  rw [serviceAt_eq hretired]
  cases hp : s.service.pipeline? s.backend with
  | none => exact ⟨[], .nothing hretired rfl⟩
  | some p =>
    simp only
    split
    · exact .refl hretired
    · obtain ⟨steps, hsteps⟩ := Pipeline.exists_work_turn s.now p
      obtain ⟨line, log, hset⟩ := setServiceAt_eq (s := { s with line := s.line.erase n, backend := (p.turn s.now).backend })
        hretired n (s.service.withPipeline (p.turn s.now))
      refine ⟨steps, hset ▸ hretired, ?_⟩
      rw [hset, hsteps]
      exact (System.run_work steps (y := s.system) hp).symm

theorem works_round (hretired : s.retired = []) : s.Works s.round := by
  -- On the writers that get their turns.
  have hturns (line : List Nat) : ∀ {s : Site}, s.retired = [] → s.Works (line.foldl turn s) := by
    induction line with
    | nil => exact .refl
    | cons n rest ih =>
      intro s hretired
      have hturn := works_turn hretired n
      exact hturn.trans (ih hturn.retired)
  exact hturns s.line hretired

theorem works_run (stop : Site → Bool) (limit : Option Nat) (fuel : Nat) : ∀ {s : Site}, s.retired = [] →
    s.Works (run stop limit fuel s) := by
  induction fuel with
  | zero => exact .refl
  | succ fuel ih =>
    intro s hretired
    unfold run
    split
    · exact .refl hretired
    · split
      · exact .refl hretired
      · rename_i due hdue
        split
        · have hjump := (Works.refl hretired).setNow (max s.now due)
          have hround := hjump.trans (works_round hjump.retired)
          exact hround.trans (ih hround.retired)
        · exact .refl hretired

theorem works_wait (hretired : s.retired = []) (stop : Site → Bool) (limit : Option Nat) : s.Works (s.wait stop limit) := by
  have hround := works_round hretired
  exact hround.trans (works_run stop limit s.outstanding hround.retired)

theorem goes_sleep (hretired : s.retired = []) (span : Span) : s.Goes (s.sleep span) :=
  ((works_wait hretired _ _).setNow _).goes

theorem goes_poll (hretired : s.retired = []) {n : Nat} {b : Barrier} {answer : Except Error Unit × Site}
    (h : s.poll n b = some answer) : s.Goes answer.2 := by
  simp only [poll, serviceAt_eq hretired] at h
  obtain ⟨j, hj, h⟩ := Option.bind_eq_some_iff.mp h
  split at h
  · rename_i hreached
    obtain rfl := Option.some.inj h
    simp only [complete, serviceAt_eq hretired]
    refine Makes.goes (m := .flush b ⟨s.now - b.since⟩) (makes_setServiceAt hretired n ?_) trivial
    have hstore : s.system.store.journal = some j := hj
    simp only [System.step, hstore, if_pos hreached]
    rfl
  · split at h
    · split at h
      · obtain rfl := Option.some.inj h
        exact .refl hretired
      · exact absurd h (by simp)
    · exact absurd h (by simp)

theorem goes_flush (hretired : s.retired = []) : s.Goes s.flush.2 := by
  unfold flush
  cases hj : s.service.store.journal with
  | none =>
    refine Makes.goes (m := .flush ⟨0, 0⟩ ⟨0⟩) (makes_setServiceAt hretired _ ?_) trivial
    have hstore : s.system.store.journal = none := hj
    simp only [System.step, hstore]
    rfl
  | some j =>
    simp only
    have hwait := (works_wait hretired (isReached (j.barrier s.now)) (j.deadline? (j.barrier s.now))).goes
    cases hfirst : s.poll s.current (j.barrier s.now) with
    | some answer => exact goes_poll hretired hfirst
    | none =>
      simp only
      generalize s.wait _ _ = t at hwait ⊢
      cases hsecond : t.poll t.current (j.barrier s.now) with
      | some answer => exact hwait.trans (goes_poll hwait.retired hsecond)
      | none =>
        -- Time has run out; what is polled last is polled at the deadline.
        have hlate := hwait.setNow ((j.deadline? (j.barrier s.now)).getD t.now)
        simp only
        generalize ({ t with now := (j.deadline? (j.barrier s.now)).getD t.now } : Site) = u at hlate ⊢
        cases hthird : u.poll u.current (j.barrier s.now) with
        | some answer => exact hlate.trans (goes_poll hlate.retired hthird)
        | none => exact hlate

end

end Site

end ResponseCache
