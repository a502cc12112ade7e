import ResponseCache.Proofs.Fetch

namespace ResponseCache

namespace Service

/-- The service with a new collector in the place of its publisher. -/
def observed (s : Service) : Service := { s with publisher := .collector, collected := [] }

/-- The service goes on collecting, and has collected these events more. -/
structure Collects (s s' : Service) (events : List Event) : Prop where
  publisher : s'.publisher = .collector
  collected : s'.collected = s.collected ++ events

/-- What is told of the answer to a decision. -/
def eventsOf (streams : Streams) (now : Moment) : Except Error Reconciliation → List Event
  | .ok r => (eventFor? streams now r).toList
  | .error _ => []

/-- What is told of the answer to a revalidation: of one that is rejected too. -/
def eventsOfRevalidation (streams : Streams) (now : Moment) (key : Key) : Except Error Reconciliation → List Event
  | .error (.inconsistentRevalidation k reason) =>
    [.revalidationRejected key.display (Error.inconsistentRevalidation k reason).message now.date]
  | answer => eventsOf streams now answer

section
variable {s : Service} (streams : Streams) (now : Moment) (key : Key)

theorem Collects.silent (h : s.publisher = .collector) (store : Store) : s.Collects { s with store } [] :=
  ⟨h, (List.append_nil _).symm⟩

theorem Collects.of_store {s' : Service} {store : Store} {events : List Event}
    (h : Collects { s with store } s' events) : s.Collects s' events :=
  ⟨h.publisher, h.collected⟩

theorem collects_publish (h : s.publisher = .collector) (e : Event) : s.Collects (s.publish e) [e] := by
  simp only [publish, publishTo, h]
  exact ⟨rfl, rfl⟩

theorem collects_publishReconciliation (h : s.publisher = .collector) (r : Reconciliation) :
    s.Collects (s.publishReconciliation streams now r) (eventFor? streams now r).toList := by
  unfold publishReconciliation
  cases eventFor? streams now r with
  | none => exact .silent h s.store
  | some e => exact collects_publish h e

theorem Collects.serve {s' : Service} {events : List Event} (h : s.Collects s' events) (intent : Intent) (source : Source)
    (r : Reconciliation) : s.Collects (s'.serve streams intent source r).2 events := by
  simp only [Service.serve]
  split
  · exact h
  · exact ⟨h.publisher, h.collected⟩

theorem collects_conclude (h : s.publisher = .collector) (intent : Intent) (outcome : Outcome) :
    s.Collects (s.conclude streams now key intent outcome).2 (eventsOfRevalidation streams now key
      (s.store.reconcileWith streams now key fun current => Decision.decide key current outcome intent).1) := by
  unfold conclude
  generalize s.store.reconcileWith streams now key _ = result
  obtain ⟨answer, store⟩ := result
  simp only
  split
  · rename_i r
    have hpublish := collects_publishReconciliation (s := { s with store }) streams now h r
    exact hpublish.of_store.serve streams intent _ r
  · rename_i k reason
    let e := Error.inconsistentRevalidation k reason
    let t := (Service.note { s with store } (.revalidationRejected key.display e)).count (·.countInconsistent)
    have hpublish := collects_publish (s := t) h (.revalidationRejected key.display e.message now.date)
    exact ⟨hpublish.publisher, hpublish.collected⟩
  · rename_i e hne
    have hquiet : eventsOfRevalidation streams now key (.error e) = [] := by
      cases e with
      | inconsistentRevalidation k reason => exact absurd rfl (hne k reason)
      | _ => rfl
    rw [hquiet]
    exact .silent h store

theorem collects_clear (h : s.publisher = .collector) : s.Collects (s.clear streams now key).2
    (eventsOf streams now (s.store.clear streams now key).1) := by
  unfold clear
  generalize s.store.clear streams now key = result
  obtain ⟨answer, store⟩ := result
  cases answer with
  | error e => exact .silent h store
  | ok r => exact (collects_publishReconciliation (s := { s with store }) streams now h r).of_store

theorem collects_finish (h : s.publisher = .collector) {o : Output} {streams' : Streams}
    (hf : streams.finish o.stream = .ok streams') : s.Collects (s.finish streams now o).2.2
      (eventsOf streams' now (s.store.attach streams' now o.key o.identity ⟨o.label, o.stream⟩).1) := by
  unfold finish
  simp only [hf]
  generalize s.store.attach streams' now o.key o.identity ⟨o.label, o.stream⟩ = result
  obtain ⟨answer, store⟩ := result
  cases answer with
  | error e => exact .silent h store
  | ok r => exact (collects_publishReconciliation (s := { s with store }) streams' now h r).of_store

/-- What is told of the answer to an eviction. -/
def eventsOfEviction (now : Moment) (key : Key) : Except Error (Option Identity) → List Event
  | .ok (some identity) => [.entryEvicted key.display identity now.date]
  | _ => []

theorem collects_evict (h : s.publisher = .collector) : s.Collects (s.evict now key).2
    (eventsOfEviction now key (s.store.evict now key).1) := by
  unfold evict
  generalize s.store.evict now key = result
  obtain ⟨answer, store⟩ := result
  simp only
  split
  · exact (collects_publish (s := { s with store }) h _).of_store
  · rename_i hne
    have hquiet : eventsOfEviction now key answer = [] := by
      cases answer with
      | error e => rfl
      | ok removed =>
        cases removed with
        | none => rfl
        | some identity => exact absurd rfl (hne identity)
    rw [hquiet]
    exact .silent h store

end
end Service

/-- What is told of a change of the live entries by an operation on this subject, with the streams and the mint as they are
afterwards. -/
inductive Telling (subject : Option Key) (streams : Streams) (live live' : Key → Option Entry) (mint mint' : Mint) :
    List Event → Prop
  | silent (hlive : ∀ k, live' k = live k) : Telling subject streams live live' mint mint' []
  | rejected (now : Moment) (key : Key) (reason : String) (hsubject : subject = some key) (hnone : live key = none)
      (hlive : ∀ k, live' k = live k) :
      Telling subject streams live live' mint mint' [.revalidationRejected key.display reason now.date]
  | created (now : Moment) (key : Key) (entry : Entry) (hsubject : subject = some key) (hnone : live key = none)
      (hkey : entry.key = key) (hmint : mint.mint? = some (entry.identity, mint'))
      (hlive : ∀ k, live' k = if key = k then some entry else live k) :
      Telling subject streams live live' mint mint' [.created streams entry now.date]
  | replaced (now : Moment) (key : Key) (old entry : Entry) (hsubject : subject = some key) (hold : live key = some old)
      (hkey : entry.key = key) (hplain : entry.alternative = none) (hmint : mint.mint? = some (entry.identity, mint'))
      (hlive : ∀ k, live' k = if key = k then some entry else live k) :
      Telling subject streams live live' mint mint' [.replaced streams entry old.identity now.date]
  | attached (now : Moment) (key : Key) (old : Entry) (a : Alternative) (hsubject : subject = some key)
      (hold : live key = some old) (hkey : old.key = key)
      (hlive : ∀ k, live' k = if key = k then some (old.withAlternative (some a) now.date) else live k) :
      Telling subject streams live live' mint mint' [.attached streams (old.withAlternative (some a) now.date) now.date]
  | cleared (now : Moment) (key : Key) (old : Entry) (hsubject : subject = some key) (hold : live key = some old)
      (hkey : old.key = key) (hlive : ∀ k, live' k = if key = k then some (old.withAlternative none now.date) else live k) :
      Telling subject streams live live' mint mint' [.cleared (old.withAlternative none now.date) now.date]
  | evicted (now : Moment) (key : Key) (old : Entry) (hsubject : subject = some key) (hold : live key = some old)
      (hlive : ∀ k, live' k = if key = k then none else live k) :
      Telling subject streams live live' mint mint' [.entryEvicted key.display old.identity now.date]

/-- Only the absence of an entry makes what the origin said undecidable. -/
theorem Decision.exists_decide (key : Key) (entry : Entry) (outcome : Outcome) (intent : Intent) :
    ∃ decision, Decision.decide key (some entry) outcome intent = .ok decision := by
  cases outcome with
  | full primary => exact ⟨_, decide_full key _ primary intent⟩
  | notModified =>
    rcases decide_notModified key entry intent with ⟨hkeep, -⟩ | ⟨a, -, hattach⟩
    · exact ⟨_, hkeep⟩
    · exact ⟨_, hattach⟩

/-- New content for an entry comes without an alternative. -/
theorem Decision.alternative_of_decide {key : Key} {entry : Entry} {outcome : Outcome} {intent : Intent}
    {primary : StreamId} {alternative : Option Alternative}
    (h : Decision.decide key (some entry) outcome intent = .ok (.replace primary alternative)) : alternative = none := by
  cases outcome with
  | full primary' =>
    rw [decide_full] at h
    cases h
    rfl
  | notModified =>
    rcases decide_notModified key entry intent with ⟨hkeep, -⟩ | ⟨a, -, hattach⟩
    · exact absurd (hkeep.symm.trans h) (by simp)
    · exact absurd (hattach.symm.trans h) (by simp)

namespace Store
variable {s s' : Store} {streams : Streams} {now : Moment} {key : Key}
  {decide : Option Entry → Except Error Decision}

/-- To attach an alternative is a decision that replaces nothing. -/
theorem ending_attach (hs : s.Tidy) (streams : Streams) (now : Moment) (key : Key) (expected : Identity) (a : Alternative) :
    ∃ decide : Option Entry → Except Error Decision,
      (∀ current primary alternative, decide current ≠ .ok (.replace primary alternative)) ∧
      Ending s streams now key decide (s.attach streams now key expected a).1 (s.attach streams now key expected a).2 := by
  refine ⟨_, ?_, ending streams now key _ hs⟩
  intro current primary alternative
  dsimp only
  split <;> simp

/-- What is told of a decision that replaces an entry by new content without an alternative only. -/
theorem Ending.telling {answer : Except Error Reconciliation} (hs : s.Living streams)
    (h : Ending s streams now key decide answer s')
    (hplain : ∀ old primary alternative, s.live? key = some old →
      decide (some old) = .ok (.replace primary alternative) → alternative = none) :
    Telling (some key) streams s.live? s'.live? s.mint s'.mint (Service.eventsOf streams now answer) := by
  cases h with
  | undecided | unresolved | unshipped => exact .silent fun _ => rfl
  | stands decision entry hd hlive h => exact .silent fun _ => rfl
  | revised decision entry mint s' hd h hship =>
    have hafter : ∀ k, (s'.applied key entry (ResponseCache.identityOf (s.live? key)).isAbsent decision.kind).live? k =
        if key = k then some entry else s.live? k := by
      intro k
      have hslots : s'.live? k = s.live? k := by rw [live?, live?, hship.slots_eq]
      rw [live?_applied, hslots]
    have habsent := hs.isAbsent_identityOf key
    have hkeyed := h.key_eq (hs.sound.tidy.keyed key)
    have hmint : mint = (s'.applied key entry (ResponseCache.identityOf (s.live? key)).isAbsent decision.kind).mint := by
      rw [applied_mint, hship.mint_eq]
    generalize s'.applied key entry (ResponseCache.identityOf (s.live? key)).isAbsent decision.kind = after at hafter hmint ⊢
    -- Where nothing is live only a replacement can revise.
    cases hcurrent : s.live? key with
    | none =>
      rw [hcurrent] at h habsent
      cases h with
      | replace _ primary alternative identity _ hprimary halternative hgiven hnew =>
        have hevents : Service.eventsOf streams now (.ok ⟨.fresh key identity primary alternative now.date, .replace,
            ResponseCache.identityOf none, true⟩) =
            [.created streams (.fresh key identity primary alternative now.date) now.date] := rfl
        rw [Decision.kind, hevents]
        exact .created now key _ rfl hcurrent hkeyed (hmint ▸ hgiven) hafter
    | some old =>
      rw [hcurrent] at h habsent hd
      cases h with
      | attach _ a hsealed hnew => exact .attached now key old a rfl hcurrent (hs.sound.tidy.keyed key old hcurrent) hafter
      | clear _ hsome => exact .cleared now key old rfl hcurrent (hs.sound.tidy.keyed key old hcurrent) hafter
      | replace _ primary alternative identity _ hprimary halternative hgiven hnew =>
        have hnone : alternative = none := hplain old primary alternative hcurrent hd
        have hevents : Service.eventsOf streams now (.ok ⟨.fresh key identity primary alternative now.date, .replace,
            ResponseCache.identityOf (some old), true⟩) =
            [.replaced streams (.fresh key identity primary alternative now.date) old.identity now.date] := by
          have hcreated : (ResponseCache.identityOf (some old)).isAbsent = false := by simpa using habsent
          simp only [Service.eventsOf, Service.eventFor?, Reconciliation.created, hcreated]
          rfl
        rw [Decision.kind, hevents]
        exact .replaced now key old _ rfl hcurrent hkeyed hnone (hmint ▸ hgiven) hafter

/-- In a store with sound entries a revalidation is inconsistent only by its decision. -/
theorem Ending.undecided_of_inconsistent {k reason : String} (hs : s.Living streams)
    (h : Ending s streams now key decide (.error (.inconsistentRevalidation k reason)) s') :
    decide (s.live? key) = .error (.inconsistentRevalidation k reason) := by
  cases h with
  | undecided e hd => exact hd
  | unresolved decision e mint hd h =>
    cases h with
    | unready e he => rcases he.error_eq with h | h <;> cases h
  | unshipped decision entry mint e hd h hship =>
    exact absurd (hship.refused_of_sealed (h.sealed (hs.sealed key))).1 (by simp)

theorem Ending.telling_revalidation {outcome : Outcome} {intent : Intent} {answer : Except Error Reconciliation}
    (hs : s.Living streams)
    (h : Ending s streams now key (fun current => Decision.decide key current outcome intent) answer s') :
    Telling (some key) streams s.live? s'.live? s.mint s'.mint (Service.eventsOfRevalidation streams now key answer) := by
  have htelling := h.telling hs fun old primary alternative _ => Decision.alternative_of_decide
  cases answer with
  | ok r => exact htelling
  | error e =>
    cases e with
    | inconsistentRevalidation k reason =>
      have hnone : s.live? key = none := by
        cases hlive : s.live? key with
        | none => rfl
        | some old =>
          obtain ⟨decision, hdecision⟩ := Decision.exists_decide key old outcome intent
          have hrejected := h.undecided_of_inconsistent hs
          rw [hlive, hdecision] at hrejected
          exact absurd hrejected (by simp)
      exact .rejected now key _ rfl hnone h.live?_error
    | _ => exact htelling

theorem Eviction.telling {answer : Except Error (Option Identity)} (h : Eviction s now key answer s') :
    Telling (some key) streams s.live? s'.live? s.mint s'.mint (Service.eventsOfEviction now key answer) := by
  have hlive := fun removed (he : answer = .ok removed) => Eviction.live?_ok (he ▸ h)
  cases h with
  | nothing hnone => exact .silent fun _ => rfl
  | refused entry e hold hsub => exact .silent fun _ => rfl
  | removed entry s' hold hsub => exact .evicted now key entry rfl hold (hlive _ rfl)

end Store

namespace System

/-- The events that a move publishes, as a new collector in the place of the publisher gets them. -/
def told (y : System) (m : Move) : List Event :=
  ({ y with service := y.service.observed }.step m).service.collected

/-- The move leaves the entries to the service: nothing is decided past it and no records are taken in. -/
def Move.Mediated : Move → Prop
  | .ask _ request => ∃ key, request = .lookup key
  | .restore _ _ => False
  | _ => True

/-- The key that a service is asked to do something about. -/
def Move.subject : Move → Option Key
  | .fetch _ key _ | .conclude _ key _ _ | .clear _ key | .evict _ key => some key
  | .finish _ o => some o.key
  | _ => none

section
variable {y : System}

theorem told_eq_nil {m : Move} (hm : ¬m.Mediated) : y.told m = [] := by
  cases m with
  | ask | restore => rfl
  | _ => exact absurd trivial hm

theorem told_conclude (y : System) (now : Moment) (key : Key) (intent : Intent) (outcome : Outcome) :
    y.told (.conclude now key intent outcome) = Service.eventsOfRevalidation y.streams now key
      (y.store.reconcileWith y.streams now key fun current => Decision.decide key current outcome intent).1 :=
  (Service.collects_conclude (s := y.service.observed) y.streams now key rfl intent outcome).collected

theorem told_clear (y : System) (now : Moment) (key : Key) :
    y.told (.clear now key) = Service.eventsOf y.streams now (y.store.clear y.streams now key).1 :=
  (Service.collects_clear (s := y.service.observed) y.streams now key rfl).collected

theorem told_evict (y : System) (now : Moment) (key : Key) :
    y.told (.evict now key) = Service.eventsOfEviction now key (y.store.evict now key).1 :=
  (Service.collects_evict (s := y.service.observed) now key rfl).collected

theorem told_finish {now : Moment} {o : Output} {streams : Streams} (h : y.streams.finish o.stream = .ok streams) :
    y.told (.finish now o) = Service.eventsOf streams now
      (y.store.attach streams now o.key o.identity ⟨o.label, o.stream⟩).1 :=
  (Service.collects_finish (s := y.service.observed) y.streams now rfl h).collected

/-- The system between the halves of a fetch. -/
def inquired (y : System) (key : Key) (intent : Intent) (streams : Streams) : System :=
  { y with streams, service := (y.service.inquire key intent).2 }

theorem told_fetch {now : Moment} {key : Key} {intent : Intent} {outcome : Outcome} {streams : Streams}
    (h : (y.service.inquire key intent).1.receive y.streams = (.ok outcome, streams)) :
    y.told (.fetch now key intent) = (y.inquired key intent streams).told (.conclude now key intent outcome) := by
  have hobserved : (y.service.observed.inquire key intent).1.receive y.streams = (.ok outcome, streams) := h
  unfold told
  rw [step_fetch { y with service := y.service.observed } now key intent outcome streams hobserved]
  rfl

/-- A fetch that gets an outcome concludes between its halves. -/
theorem step_fetch_of_ok {now : Moment} {key : Key} {intent : Intent} {outcome : Outcome} {streams : Streams}
    (h : (y.service.inquire key intent).1.receive y.streams = (.ok outcome, streams)) :
    y.step (.fetch now key intent) = (y.inquired key intent streams).step (.conclude now key intent outcome) :=
  step_fetch y now key intent outcome streams h

theorem collects_mapJournal (h : y.service.publisher = .collector) (f : Journal → Journal) :
    y.service.Collects (y.mapJournal f).service [] := by
  unfold mapJournal
  cases y.store.journal with
  | none => exact .silent h y.store
  | some j => exact .silent h _

theorem collects_of_call?_eq_none (h : y.service.publisher = .collector) {m : Move} (hcall : y.call? m = none) :
    y.service.Collects (y.step m).service [] := by
  have hsame : y.service.collected = y.service.collected ++ [] := (List.append_nil _).symm
  cases m with
  | ask | conclude | clear | evict => exact absurd hcall (by simp [call?])
  | fetch now key intent =>
    obtain ⟨e, streams, hreceive⟩ := receive_of_call?_eq_none hcall
    simp only [step, Service.fetch, hreceive]
    exact ⟨h, hsame⟩
  | finish now o =>
    obtain ⟨e, hfinish⟩ := finish_of_call?_eq_none hcall
    simp only [step, Service.finish_of_error _ _ now hfinish]
    exact ⟨h, hsame⟩
  | work w =>
    simp only [step, Service.pipeline?]
    cases y.service.store.journal <;> exact ⟨h, hsame⟩
  | flush b elapsed =>
    simp only [step]
    split
    · exact ⟨h, hsame⟩
    · split <;> exact ⟨h, hsame⟩
  | close | cancel => exact collects_mapJournal h _
  | inquire | receive | script | openStream | writeStream | sealStream | releaseStream | restore | submit | disturb =>
    exact ⟨h, hsame⟩

theorem told_of_call?_eq_none {m : Move} (h : y.call? m = none) : y.told m = [] := by
  have hcall : ({ y with service := y.service.observed } : System).call? m = y.call? m := by
    cases m <;> rfl
  exact (collects_of_call?_eq_none (y := { y with service := y.service.observed }) rfl (hcall.trans h)).collected

/-- A service that collects gets what is told of every move. -/
theorem collects_step (h : y.service.publisher = .collector) (m : Move) :
    y.service.Collects (y.step m).service (y.told m) := by
  have hconclude (y : System) (h : y.service.publisher = .collector) (now : Moment) (key : Key) (intent : Intent)
      (outcome : Outcome) : y.service.Collects (y.step (.conclude now key intent outcome)).service
        (y.told (.conclude now key intent outcome)) := by
    rw [told_conclude]
    exact Service.collects_conclude y.streams now key h intent outcome
  cases hcall : y.call? m with
  | none =>
    rw [told_of_call?_eq_none hcall]
    exact collects_of_call?_eq_none h hcall
  | some call =>
    obtain ⟨s, c⟩ := call
    cases calls_of_call? hcall with
    | ask now request => exact ⟨h, (List.append_nil _).symm⟩
    | fetch now key intent outcome streams hreceive =>
      rw [told_fetch hreceive, step_fetch_of_ok hreceive]
      have hlast := hconclude (y.inquired key intent streams) h now key intent outcome
      exact ⟨hlast.publisher, hlast.collected⟩
    | conclude now key intent outcome => exact hconclude y h now key intent outcome
    | finish now o streams hfinish =>
      rw [told_finish hfinish]
      exact Service.collects_finish y.streams now h hfinish
    | clear now key =>
      rw [told_clear]
      exact Service.collects_clear y.streams now key h
    | evict now key =>
      rw [told_evict]
      exact Service.collects_evict now key h

theorem telling_conclude (hy : y.store.Living y.streams) (now : Moment) (key : Key) (intent : Intent) (outcome : Outcome) :
    Telling (some key) y.streams y.store.live? (y.step (.conclude now key intent outcome)).store.live? y.store.mint
      (y.step (.conclude now key intent outcome)).store.mint (y.told (.conclude now key intent outcome)) := by
  have hend := Store.ending y.streams now key (fun current => Decision.decide key current outcome intent) hy.sound.tidy
  obtain ⟨monitor, hafter⟩ := y.service.alike_conclude y.streams now key intent outcome
  have hstore : (y.step (.conclude now key intent outcome)).store =
      { (y.store.reconcileWith y.streams now key fun current => Decision.decide key current outcome intent).2 with
        monitor } := hafter
  have htelling := hend.telling_revalidation hy
  rw [told_conclude, hstore]
  exact htelling

theorem living_inquired (hy : y.store.Living y.streams) {key : Key} {intent : Intent} {received : Except Error Outcome}
    {streams : Streams} (h : (y.service.inquire key intent).1.receive y.streams = (received, streams)) :
    (y.inquired key intent streams).store.Living streams ∧
      (y.inquired key intent streams).store.live? = y.store.live? ∧
      (y.inquired key intent streams).store.mint = y.store.mint := by
  have hk : y.streams.Keeps streams := by
    have hkeeps := y.streams.keeps_receive (y.service.inquire key intent).1
    rwa [h] at hkeeps
  obtain ⟨monitor, hasked⟩ := y.service.alike_inquire key intent
  have hstore : (y.inquired key intent streams).store = { y.store with monitor } := hasked
  have hsame : Store.Living y.streams { y.store with monitor } := hy.of_eq rfl (hy.sound.of_eq rfl rfl) rfl
  rw [hstore]
  exact ⟨hsame.of_keeps hk, rfl, rfl⟩

/-- What a move that leaves the entries to the service tells of them. -/
theorem telling (hy : y.store.Living y.streams) {m : Move} (hm : m.Mediated) :
    Telling m.subject (y.step m).streams y.store.live? (y.step m).store.live? y.store.mint (y.step m).store.mint
      (y.told m) := by
  have hfixed (monitor : Monitor) : Store.Tidy { y.store with monitor } := hy.sound.tidy.of_slots rfl
  -- A move that makes no call is silent; a call tells of the entries of its key only.
  cases hcall : y.call? m with
  | none =>
    have hrestores : ¬m.Restores := by
      cases m with
      | restore => exact fun _ => hm
      | _ => exact id
    have hslots := (same_of_call?_eq_none hcall hrestores).1
    rw [told_of_call?_eq_none hcall]
    exact .silent fun k => by rw [Store.live?, Store.live?, hslots]
  | some call =>
    obtain ⟨s, c⟩ := call
    cases calls_of_call? hcall with
    | ask now request =>
      obtain ⟨key, rfl⟩ := hm
      obtain ⟨monitor, hafter⟩ := y.store.lookup_snd key
      refine .silent fun k => ?_
      show (y.store.lookup key).2.live? k = _
      rw [hafter]
      rfl
    | fetch now key intent outcome streams hreceive =>
      obtain ⟨hliving, hlive, hmint⟩ := living_inquired hy hreceive
      have hlast := telling_conclude (y := y.inquired key intent streams) hliving now key intent outcome
      rw [hlive, hmint] at hlast
      rw [told_fetch hreceive, step_fetch_of_ok hreceive]
      exact hlast
    | conclude now key intent outcome => exact telling_conclude hy now key intent outcome
    | finish now o streams hfinish =>
      have hs : y.store.Living streams := hy.of_keeps (Streams.keeps_finish hfinish)
      obtain ⟨hstreams, monitor, hafter⟩ := y.service.alike_finish_of_ok y.streams now hfinish
      have hstep : (y.step (.finish now o)).streams = streams := hstreams
      have hstore : (y.step (.finish now o)).store =
          { (y.store.attach streams now o.key o.identity ⟨o.label, o.stream⟩).2 with monitor } := hafter
      obtain ⟨decide, hplain, hend⟩ := Store.ending_attach hs.sound.tidy streams now o.key o.identity ⟨o.label, o.stream⟩
      have htelling := hend.telling hs fun old primary alternative _ hd => absurd hd (hplain _ _ _)
      rw [told_finish hfinish, hstore, hstep]
      exact htelling
    | clear now key =>
      obtain ⟨monitor, hafter⟩ := y.service.alike_clear y.streams now key
      have hstore : (y.step (.clear now key)).store = { (y.store.clear y.streams now key).2 with monitor } := hafter
      have hend := Store.ending y.streams now key (fun _ => .ok .clear) hy.sound.tidy
      have htelling := hend.telling hy fun _ _ _ _ hd => absurd (Except.ok.inj hd) (by simp)
      rw [told_clear, hstore]
      exact htelling
    | evict now key =>
      obtain ⟨monitor, hafter⟩ := y.service.alike_evict now key
      have hstore : (y.step (.evict now key)).store = { (y.store.evict now key).2 with monitor } := hafter
      rw [told_evict, hstore]
      exact (Store.eviction hy.sound.tidy now key).telling

end
end System
end ResponseCache
