import ResponseCache.Proofs.Fresh

namespace ResponseCache

/-- The alternative that the client wants stored. -/
def Intent.supplied? : Intent → Option Alternative
  | supply a => some a
  | _ => Option.none

theorem Entry.alternativeFor_eq_some_iff (e : Entry) (label : String) (id : StreamId) :
    e.alternativeFor label = some id ↔ e.alternative = some ⟨label, id⟩ := by
  unfold alternativeFor
  cases e.alternative with
  | none => simp
  | some a =>
    obtain ⟨label', id'⟩ := a
    by_cases hl : label' = label <;> simp [Option.filter, hl]

section
variable {s s' : Store} {streams : Streams} {now : Moment} {key : Key} {intent : Intent} {r : Reconciliation}

/-- New content replaces the entry; an alternative is taken with it only where there was no entry. -/
theorem Decision.decide_full (key : Key) (current : Option Entry) (primary : StreamId) (intent : Intent) :
    Decision.decide key current (.full primary) intent =
      .ok (.replace primary (if current = none then intent.supplied? else none)) := by
  cases current <;> cases intent <;> rfl

theorem Decision.decide_notModified (key : Key) (entry : Entry) (intent : Intent) :
    Decision.decide key (some entry) .notModified intent = .ok .keep ∧
        (intent.supplied? = none ∨ intent.supplied? = entry.alternative) ∨
      ∃ a, intent.supplied? = some a ∧ Decision.decide key (some entry) .notModified intent = .ok (.attach a) := by
  cases intent with
  | none => exact .inl ⟨rfl, .inl rfl⟩
  | prefer label => exact .inl ⟨rfl, .inl rfl⟩
  | supply a =>
    by_cases ha : entry.alternative = some a
    · exact .inl ⟨by simp [Decision.decide, ha], .inr ha.symm⟩
    · exact .inr ⟨a, rfl, by simp [Decision.decide, ha]⟩

/-- A copy that was confirmed stays, with the supplied alternative if there is one. -/
theorem Store.Ending.confirmed
    (h : Store.Ending s streams now key (fun current => Decision.decide key current .notModified intent) (.ok r) s') :
    ∃ old, s.live? key = some old ∧ r.entry.identity = old.identity ∧ r.entry.primary = old.primary ∧
      r.entry.alternative = intent.supplied?.or old.alternative := by
  cases hlive : s.live? key with
  | none =>
    -- Nothing that could be confirmed is there, so the validator gives an error.
    obtain ⟨he, -⟩ := h.of_undecided (by rw [hlive]; rfl)
    exact absurd he (by simp)
  | some old =>
    rcases Decision.decide_notModified key old intent with ⟨hkeep, hsupplied⟩ | ⟨a, hsupplied, hattach⟩
    · have hr := Except.ok.inj (h.of_stands (hlive ▸ hkeep) hlive .keep).1
      subst hr
      refine ⟨old, rfl, rfl, rfl, ?_⟩
      rcases hsupplied with hnone | hsame
      · simp [hnone]
      · simp [hsame]
    · obtain ⟨old', hlive', -, hidentity, hprimary, halternative⟩ := h.attached (hlive ▸ hattach)
      have hsame : old' = old := Option.some.inj (hlive'.symm.trans hlive)
      subst hsame
      exact ⟨old', rfl, hidentity, hprimary, by simp [hsupplied, halternative]⟩

end

/-- The response shows the alternative of its entry if that is there under the label that the client has in mind, else the
primary. -/
structure Response.Shows (r : Response) (streams : Streams) (intent : Intent) : Prop where
  representation : r.representation = .alternative ↔
    ∃ label, intent.label? = some label ∧ r.entry.alternativeLabel = some label
  alternative : r.representation = .alternative → ∃ a, r.entry.alternative = some a ∧
    streams.content a.stream = .ok r.body ∧ r.contentType streams = streams.contentType a.stream ∧
    r.alternativeLabel = some a.label
  primary : r.representation = .primary → streams.content r.entry.primary = .ok r.body ∧
    r.contentType streams = streams.contentType r.entry.primary ∧ r.alternativeLabel = none

namespace Service
variable (s : Service) (streams : Streams) (now : Moment) (key : Key) (intent : Intent)

theorem chosen_eq_some_iff (e : Entry) (id : StreamId) : intent.label?.bind e.alternativeFor = some id ↔
    ∃ label, intent.label? = some label ∧ e.alternative = some ⟨label, id⟩ := by
  simp only [Option.bind_eq_some_iff, Entry.alternativeFor_eq_some_iff]

theorem isSome_chosen_iff (e : Entry) : (intent.label?.bind e.alternativeFor).isSome = true ↔
    ∃ label, intent.label? = some label ∧ e.alternativeLabel = some label := by
  simp only [Option.isSome_iff_exists, chosen_eq_some_iff, Entry.alternativeLabel, Option.map_eq_some_iff]
  constructor
  · rintro ⟨id, label, hlabel, ha⟩
    exact ⟨label, hlabel, ⟨label, id⟩, ha, rfl⟩
  · rintro ⟨label, hlabel, a, ha, rfl⟩
    exact ⟨a.stream, a.label, hlabel, ha⟩

theorem shows_of_serve {source : Source} {r : Reconciliation} {response : Response}
    (h : (s.serve streams intent source r).1 = .ok response) :
    response.entry = r.entry ∧ response.source = source ∧ response.Shows streams intent := by
  simp only [serve] at h
  have hchosen := isSome_chosen_iff intent r.entry
  -- One stream is read; whether it is the alternative's decides the representation and both labels.
  cases hbody : streams.content ((intent.label?.bind r.entry.alternativeFor).getD r.entry.primary) with
  | error e => simp [hbody] at h
  | ok body =>
    simp only [hbody, Except.ok.injEq] at h
    subst h
    refine ⟨rfl, rfl, ?_⟩
    cases hid : intent.label?.bind r.entry.alternativeFor with
    | none =>
      rw [hid] at hbody hchosen
      exact ⟨by simpa using hchosen, by simp, fun _ => ⟨hbody, rfl, rfl⟩⟩
    | some id =>
      rw [hid] at hbody hchosen
      obtain ⟨label, -, ha⟩ := (chosen_eq_some_iff intent r.entry id).mp hid
      refine ⟨by simpa using hchosen, fun _ => ⟨⟨label, id⟩, ha, hbody, ?_, ?_⟩, by simp⟩
      · simp [Response.contentType, ha]
      · simp [Response.alternativeLabel, Entry.alternativeLabel, ha]

theorem exists_serve (source : Source) {r : Reconciliation} (h : r.entry.Sealed streams) :
    ∃ response, (s.serve streams intent source r).1 = .ok response := by
  have hsealed : streams.Sealed ((intent.label?.bind r.entry.alternativeFor).getD r.entry.primary) := by
    cases hid : intent.label?.bind r.entry.alternativeFor with
    | none => exact h.primary
    | some id =>
      obtain ⟨label, -, ha⟩ := (chosen_eq_some_iff intent r.entry id).mp hid
      exact h.alternative _ ha
  obtain ⟨body, hbody⟩ := hsealed
  simp only [serve, hbody]
  exact ⟨_, rfl⟩

/-- What the origin is asked about a key. -/
def question : Question := ⟨key, s.store.identityOf key, intent.wantsAlternative, intent.label?⟩

theorem questions_inquire : (s.inquire key intent).2.origin.questions = s.origin.questions ++ [s.question key intent] := by
  have hlookup : identityOf (s.store.lookup key).1 = s.store.identityOf key := by rw [Store.lookup_fst, Store.identityOf]
  simp only [inquire, Origin.ask, hlookup]
  cases s.origin.script <;> rfl

/-- A decision that goes well is served; one that fails gives its error. -/
theorem conclude_fst (outcome : Outcome) :
    (s.conclude streams now key intent outcome).1 =
      match (s.store.reconcileWith streams now key fun current => Decision.decide key current outcome intent).1 with
      | .ok r => (s.serve streams intent (if outcome = .notModified then .cache else .network) r).1
      | .error e => .error e := by
  unfold conclude
  generalize s.store.reconcileWith streams now key _ = result
  obtain ⟨answer, store⟩ := result
  cases answer with
  | ok r =>
    simp only [serve]
    split <;> rfl
  | error e => cases e <;> rfl

/-- What the second half of a fetch serves is what the store decided on. -/
theorem ending_conclude {s : Service} {streams : Streams} {now : Moment} {key : Key} {intent : Intent} {outcome : Outcome}
    {response : Response} (hs : s.store.Tidy) (h : (s.conclude streams now key intent outcome).1 = .ok response) :
    ∃ r, response.entry = r.entry ∧
      s.store.Ending streams now key (fun current => Decision.decide key current outcome intent) (.ok r)
        (s.store.reconcileWith streams now key fun current => Decision.decide key current outcome intent).2 := by
  have hend := Store.ending streams now key (fun current => Decision.decide key current outcome intent) hs
  rw [conclude_fst] at h
  cases hanswer : (s.store.reconcileWith streams now key fun current => Decision.decide key current outcome intent).1 with
  | error e =>
    rw [hanswer] at h
    exact absurd h (by simp)
  | ok r =>
    rw [hanswer] at h hend
    exact ⟨r, (shows_of_serve _ _ _ h).1, hend⟩

end Service

namespace System

/-- How a fetch ends that got an outcome: the store that was looked up in decides on it, and the answer is served. -/
structure Fetched (y : System) (now : Moment) (key : Key) (intent : Intent) (outcome : Outcome) (streams : Streams)
    (answer : Except Error Reconciliation) (s s' : Store) : Prop where
  asked : y.store.Alike s
  ending : s.Ending streams now key (fun current => Decision.decide key current outcome intent) answer s'
  after : s'.Alike (y.step (.fetch now key intent)).store
  streams_eq : (y.step (.fetch now key intent)).streams = streams
  served : ∀ r, answer = .ok r → (y.service.fetch y.streams now key intent).1 =
    ((y.service.inquire key intent).2.serve streams intent (if outcome = .notModified then .cache else .network) r).1
  refused : ∀ e, answer = .error e → (y.service.fetch y.streams now key intent).1 = .error e

theorem fetched {y : System} (hy : y.store.Tidy) (now : Moment) (key : Key) (intent : Intent) {outcome : Outcome}
    {streams : Streams} (h : (y.service.inquire key intent).1.receive y.streams = (.ok outcome, streams)) :
    ∃ answer s s', y.Fetched now key intent outcome streams answer s s' := by
  have hasked := y.service.alike_inquire key intent
  have htidy : (y.service.inquire key intent).2.store.Tidy := by
    obtain ⟨monitor, hm⟩ := hasked
    rw [hm]
    exact hy.of_slots rfl
  have hstep := step_fetch y now key intent outcome streams h
  have hresult : (y.service.fetch y.streams now key intent).1 =
      ((y.service.inquire key intent).2.conclude streams now key intent outcome).1 := by
    simp only [Service.fetch, h]
  rw [Service.conclude_fst] at hresult
  refine ⟨_, _, _, hasked, Store.ending streams now key _ htidy, ?_, ?_, ?_, ?_⟩
  · rw [hstep]
    exact Service.alike_conclude _ streams now key intent outcome
  · rw [hstep]
  · intro r hr
    rw [hresult, hr]
  · intro e he
    rw [hresult, he]

theorem fetched_of_notModified {y : System} (hy : y.store.Tidy) (now : Moment) {key : Key} {intent : Intent}
    (h : (y.service.inquire key intent).1 = .notModified) :
    ∃ answer s s', y.Fetched now key intent .notModified y.streams answer s s' := by
  refine fetched hy now key intent ?_
  rw [h]
  rfl

theorem fetched_of_full {y : System} (hy : y.store.Tidy) (now : Moment) {key : Key} {intent : Intent} {body : Bytes}
    {contentType : String} (h : (y.service.inquire key intent).1 = .full body contentType) :
    ∃ answer s s', y.Fetched now key intent (.full (y.streams.add (.ofContent contentType body)).1)
      (y.streams.add (.ofContent contentType body)).2 answer s s' := by
  refine fetched hy now key intent ?_
  rw [h]
  rfl

theorem fetch_of_failure {y : System} (now : Moment) {key : Key} {intent : Intent} {reason : String}
    (h : (y.service.inquire key intent).1 = .failure reason) :
    (y.service.fetch y.streams now key intent).1 = .error (.origin reason) ∧
      y.store.Alike (y.step (.fetch now key intent)).store := by
  have hfetch : y.service.fetch y.streams now key intent =
      (.error (.origin reason), y.streams, (y.service.inquire key intent).2) := by
    simp only [Service.fetch, h, Answer.receive]
  refine ⟨congrArg Prod.fst hfetch, ?_⟩
  simp only [step, hfetch]
  exact y.service.alike_inquire key intent

section
variable {y : System} {now : Moment} {key : Key} {intent : Intent} {outcome : Outcome} {streams : Streams}
  {answer : Except Error Reconciliation} {s s' : Store}

theorem Fetched.live?_eq (h : y.Fetched now key intent outcome streams answer s s') (key' : Key) :
    s.live? key' = y.store.live? key' := by
  obtain ⟨monitor, rfl⟩ := h.asked
  rfl

theorem Fetched.living (hy : y.store.Living y.streams) (hk : y.streams.Keeps streams)
    (h : y.Fetched now key intent outcome streams answer s s') : s.Living streams := by
  obtain ⟨monitor, rfl⟩ := h.asked
  exact Store.Living.of_keeps (Store.Living.of_eq hy rfl (hy.sound.of_eq rfl rfl) rfl) hk

theorem Fetched.of_ok {response : Response} (h : y.Fetched now key intent outcome streams answer s s')
    (hok : (y.service.fetch y.streams now key intent).1 = .ok response) : ∃ r, answer = .ok r ∧
      response.entry = r.entry ∧ response.source = (if outcome = .notModified then .cache else .network) ∧
      response.Shows streams intent ∧ (y.step (.fetch now key intent)).store.live? key = some response.entry := by
  cases answer with
  | error e => exact absurd ((h.refused e rfl).symm.trans hok) (by simp)
  | ok r =>
    rw [h.served r rfl] at hok
    obtain ⟨hentry, hsource, hshows⟩ := Service.shows_of_serve _ streams intent hok
    refine ⟨r, rfl, hentry, hsource, hshows, ?_⟩
    obtain ⟨monitor, hafter⟩ := h.after
    have hlive : s'.live? key = some r.entry := (h.ending.live?_ok key).trans (if_pos rfl)
    rw [hafter, hentry]
    exact hlive

/-- A fetch whose copy the origin confirms serves the generation that was there. -/
theorem Fetched.confirmed {response : Response} (h : y.Fetched now key intent .notModified streams answer s s')
    (hok : (y.service.fetch y.streams now key intent).1 = .ok response) : ∃ old, y.store.live? key = some old ∧
      response.source = .cache ∧ response.cacheEntryId = old.identity ∧ response.entry.identity = old.identity ∧
      response.entry.primary = old.primary ∧ response.entry.alternative = intent.supplied?.or old.alternative := by
  obtain ⟨r, rfl, hentry, hsource, -, -⟩ := h.of_ok hok
  obtain ⟨old, hold, hidentity, hprimary, halternative⟩ := h.ending.confirmed
  rw [h.live?_eq] at hold
  rw [← hentry] at hidentity hprimary halternative
  refine ⟨old, hold, hsource, ?_, hidentity, hprimary, halternative⟩
  simp only [Response.cacheEntryId, Response.fromCache, hsource, if_true, decide_true, hidentity]

/-- A fetch that gets new content serves a generation that was not there before. -/
theorem Fetched.renewed {primary : StreamId} {response : Response}
    (h : y.Fetched now key intent (.full primary) streams answer s s')
    (hok : (y.service.fetch y.streams now key intent).1 = .ok response) :
    response.source = .network ∧ response.cacheEntryId = .absent ∧ response.entry.primary = primary ∧
      (∃ mint, y.store.mint.mint? = some (response.entry.identity, mint)) ∧
      response.entry.alternative = if y.store.live? key = none then intent.supplied? else none := by
  obtain ⟨r, rfl, hentry, hsource, -, -⟩ := h.of_ok hok
  obtain ⟨identity, hmint, -, hfresh⟩ := h.ending.replaced (Decision.decide_full key (s.live? key) primary intent)
  obtain ⟨monitor, rfl⟩ := h.asked
  rw [hentry, hfresh]
  refine ⟨hsource, ?_, rfl, ⟨_, hmint⟩, rfl⟩
  simp [Response.cacheEntryId, Response.fromCache, hsource]

theorem Fetched.inconsistent (h : y.Fetched now key intent .notModified streams answer s s')
    (hlive : y.store.live? key = none) : (y.service.fetch y.streams now key intent).1 =
      .error (.inconsistentRevalidation key.display "origin reported not-modified but nothing is cached") ∧
      y.store.Alike (y.step (.fetch now key intent)).store := by
  have hnone : s.live? key = none := (h.live?_eq key).trans hlive
  obtain ⟨he, hsame⟩ := h.ending.of_undecided (by rw [hnone]; rfl)
  exact ⟨h.refused _ he, h.asked.trans (hsame ▸ h.after)⟩

theorem Fetched.exists_ok (h : y.Fetched now key intent outcome streams answer s s')
    (hy : y.store.Living y.streams) (hk : y.streams.Keeps streams) (hopen : y.store.IsOpen)
    {decision : Decision} (hd : Decision.decide key (y.store.live? key) outcome intent = .ok decision)
    (hsealed : ∀ id ∈ decision.streams, streams.Sealed id)
    (hlive : decision.kind ≠ .replace → y.store.live? key ≠ none)
    (hmint : decision.kind = .replace → y.store.mint.mint? ≠ none) :
    ∃ response, (y.service.fetch y.streams now key intent).1 = .ok response := by
  have hs : s.Living streams := h.living hy hk
  have hsame := h.live?_eq key
  have hstore : s.IsOpen ∧ s.mint = y.store.mint := by
    obtain ⟨monitor, rfl⟩ := h.asked
    exact ⟨hopen, rfl⟩
  obtain ⟨r, rfl⟩ := h.ending.exists_ok hs hstore.1 (hsame ▸ hd) hsealed (hsame ▸ hlive) (hstore.2 ▸ hmint)
  have hentry : s'.live? key = some r.entry := (h.ending.live?_ok key).trans (if_pos rfl)
  obtain ⟨response, hresponse⟩ := Service.exists_serve (y.service.inquire key intent).2 streams intent
    (if outcome = .notModified then .cache else .network) ((h.ending.living hs).sealed key r.entry hentry)
  exact ⟨response, (h.served r rfl).trans hresponse⟩

end

/-- What a fetch serves is live then: a copy that was live before, or a generation larger than any that was given out. -/
theorem served_of_fetch {y : System} (hy : y.store.Living y.streams) {now : Moment} {key : Key} {intent : Intent}
    {response : Response} (h : (y.service.fetch y.streams now key intent).1 = .ok response) :
    (y.step (.fetch now key intent)).store.live? key = some response.entry ∧
      (response.fromCache = true → y.store.identityOf key = response.identity) ∧
      (response.fromCache = false → ∀ i, y.store.mint.Past i → i < response.identity) := by
  cases hanswer : (y.service.inquire key intent).1 with
  | failure reason => exact absurd ((fetch_of_failure now hanswer).1.symm.trans h) (by simp)
  | notModified =>
    obtain ⟨decided, s, s', hfetched⟩ := fetched_of_notModified hy.sound.tidy now hanswer
    obtain ⟨-, -, -, -, -, hlive⟩ := hfetched.of_ok h
    obtain ⟨old, hold, hsource, -, hidentity, -⟩ := hfetched.confirmed h
    have hcache : response.fromCache = true := decide_eq_true hsource
    exact ⟨hlive, fun _ => (Store.identityOf_of_live hold).trans hidentity.symm, fun hnot => by simp [hcache] at hnot⟩
  | full body contentType =>
    obtain ⟨decided, s, s', hfetched⟩ := fetched_of_full hy.sound.tidy now hanswer
    obtain ⟨-, -, -, -, -, hlive⟩ := hfetched.of_ok h
    obtain ⟨hsource, -, -, ⟨mint, hmint⟩, -⟩ := hfetched.renewed h
    have hnetwork : response.fromCache = false := by simp [Response.fromCache, hsource]
    exact ⟨hlive, fun hcache => by simp [hnetwork] at hcache, fun _ i hi => hi.lt hmint⟩

end System
end ResponseCache
