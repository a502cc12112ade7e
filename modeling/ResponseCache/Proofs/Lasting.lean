import ResponseCache.Proofs.Telling
/-!
Entries last. An entry holds sealed streams only, and so it reads the same for ever, wherever it was handed to. That is why
nothing can fail any more once the store has taken a change.
-/
namespace ResponseCache

/-- The streams that an entry holds. -/
def Entry.streams (e : Entry) : List StreamId := e.primary :: (e.alternative.map (·.stream)).toList

theorem Entry.Sealed.of_mem_streams {streams : Streams} {e : Entry} (h : e.Sealed streams) {id : StreamId}
    (hid : id ∈ e.streams) : streams.Sealed id := by
  rcases List.mem_cons.mp hid with rfl | halternative
  · exact h.primary
  · rw [Option.mem_toList, Option.map_eq_some_iff] at halternative
    obtain ⟨a, ha, rfl⟩ := halternative
    exact h.alternative a ha

namespace Streams
variable {s : Streams} {id : StreamId} {bytes : Bytes}

theorem isSealed_of_content (h : s.content id = .ok bytes) : s.isSealed id = true := by
  obtain ⟨stream, hget, hphase⟩ := (s.content_eq_ok_iff id bytes).mp h
  simp [isSealed, hget, Stream.isSealed, hphase]

theorem size_of_content (h : s.content id = .ok bytes) : s.size id = bytes.length := by
  obtain ⟨stream, hget, hphase⟩ := (s.content_eq_ok_iff id bytes).mp h
  simp [size, hget, Stream.length?, hphase]

end Streams

namespace System

/-- From here on the entry reads the same: its streams are sealed, and neither their content nor its record changes. -/
structure Lasts (y : System) (e : Entry) : Prop where
  content : ∀ id ∈ e.streams, ∃ bytes, ∀ later, (y.run later).streams.isSealed id = true ∧
    (y.run later).streams.content id = .ok bytes
  record : ∃ record, ∀ later, Record.ofEntry (y.run later).streams e = .ok record

theorem alwaysKept_keeps (streams : Streams) : AlwaysKept fun streams' _ _ => streams.Keeps streams' where
  alike := fun _ h => h
  streams := fun hk h => h.trans hk
  decide := fun _ _ _ h => h
  evict := fun _ _ h => h
  work := fun _ _ h => h
  collect := fun _ _ _ h => h
  close := fun _ h => h
  cancel := fun _ h => h
  restore := fun now record h => h.trans (Store.restoring now record _ _).keeps
  submit := fun _ _ _ h => h
  disturb := fun _ h => h

theorem keeps_step (y : System) (m : Move) : y.streams.Keeps (y.step m).streams :=
  (alwaysKept_keeps y.streams).step m (Streams.Keeps.refl y.streams)

theorem keeps_run (y : System) (moves : List Move) : y.streams.Keeps (y.run moves).streams :=
  (alwaysKept_keeps y.streams).run moves (Streams.Keeps.refl y.streams)

theorem lasts_of_sealed {y : System} {e : Entry} (h : e.Sealed y.streams) : y.Lasts e := by
  constructor
  · intro id hid
    obtain ⟨bytes, hbytes⟩ := h.of_mem_streams hid
    refine ⟨bytes, fun later => ?_⟩
    have hlater := (y.keeps_run later).content hbytes
    exact ⟨Streams.isSealed_of_content hlater, hlater⟩
  · obtain ⟨record, hrecord⟩ := Record.exists_ofEntry h
    exact ⟨record, fun later => Record.ofEntry_of_keeps (y.keeps_run later) hrecord⟩

/-- The entries that a move shows to somebody: to one who decides in the face of the live entry, and in an answer. -/
def handed (y : System) : Move → List Entry
  | .ask now request =>
    let shown := (request.decide?.bind fun (key, _) => y.store.live? key).toList
    match (y.store.perform ⟨request, y.streams, now⟩).1 with
    | .ok (.found (some e)) => shown ++ [e]
    | .ok (.reconciled r) => shown ++ [r.entry]
    | _ => shown
  | .fetch now key intent => ((y.service.fetch y.streams now key intent).1.toOption.map (·.entry)).toList
  | .inquire key _ => (y.store.live? key).toList
  | .conclude now key intent outcome =>
    ((y.service.conclude y.streams now key intent outcome).1.toOption.map (·.entry)).toList
  | .finish now o => (y.service.finish y.streams now o).1.toOption.toList
  | .clear now key => (y.service.clear y.streams now key).1.toOption.toList
  | _ => []

/-- The entries that a run shows to somebody. -/
def views (y : System) : List Move → List Entry
  | [] => []
  | m :: rest => y.handed m ++ (y.step m).views rest

end System

/-- What a decision answers is sealed. -/
theorem Store.Ending.sealed_of_ok {s s' : Store} {streams : Streams} {now : Moment} {key : Key}
    {decide : Option Entry → Except Error Decision} {r : Reconciliation}
    (h : Ending s streams now key decide (.ok r) s') (hs : s.Living streams) : r.entry.Sealed streams :=
  (h.living hs).sealed key r.entry ((h.live?_ok key).trans (if_pos rfl))

theorem Store.Ending.live?_of_map {s s' : Store} {streams : Streams} {now : Moment} {key : Key}
    {decide : Option Entry → Except Error Decision} {answer : Except Error Reconciliation} {e : Entry}
    (h : Ending s streams now key decide answer s') (he : answer.map Reconciliation.entry = .ok e) :
    s'.live? key = some e := by
  cases answer with
  | error x => exact absurd he (by simp [Except.map])
  | ok r => exact Except.ok.inj he ▸ (h.live?_ok key).trans (if_pos rfl)

theorem toOption_eq_some_iff {α : Type} (answer : Except Error α) (a : α) : answer.toOption = some a ↔ answer = .ok a := by
  cases answer <;> simp [Except.toOption]

namespace Service
variable (s : Service) (streams : Streams) (now : Moment)

theorem finish_fst {o : Output} {streams' : Streams} (h : streams.finish o.stream = .ok streams') :
    (s.finish streams now o).1 =
      (s.store.attach streams' now o.key o.identity ⟨o.label, o.stream⟩).1.map Reconciliation.entry := by
  unfold finish
  simp only [h]
  generalize s.store.attach streams' now o.key o.identity ⟨o.label, o.stream⟩ = result
  obtain ⟨answer, store⟩ := result
  cases answer <;> rfl

theorem clear_fst (key : Key) : (s.clear streams now key).1 =
    (s.store.clear streams now key).1.map Reconciliation.entry := by
  unfold clear
  generalize s.store.clear streams now key = result
  obtain ⟨answer, store⟩ := result
  cases answer <;> rfl

end Service

namespace System
variable {y : System}

theorem live_of_handed_conclude (hy : y.store.Tidy) {now : Moment} {key : Key} {intent : Intent} {outcome : Outcome}
    {response : Response} (h : (y.service.conclude y.streams now key intent outcome).1 = .ok response) :
    (y.step (.conclude now key intent outcome)).store.live? key = some response.entry := by
  obtain ⟨r, hentry, hend⟩ := Service.ending_conclude (s := y.service) hy h
  obtain ⟨monitor, hafter⟩ := y.service.alike_conclude y.streams now key intent outcome
  have hlive := (hend.live?_ok key).trans (if_pos rfl)
  show (y.service.conclude y.streams now key intent outcome).2.store.live? key = _
  rw [hafter, hentry]
  exact hlive

theorem live_of_handed_ask (hy : y.store.Tidy) {now : Moment} {request : Request} {e : Entry}
    (he : e ∈ y.handed (.ask now request)) : (∃ key, y.store.live? key = some e) ∨
      ∃ key, (y.step (.ask now request)).store.live? key = some e := by
  have hshown (hin : e ∈ (request.decide?.bind fun (key, _) => y.store.live? key).toList) :
      ∃ key, y.store.live? key = some e := by
    rw [Option.mem_toList, Option.bind_eq_some_iff] at hin
    obtain ⟨⟨key, decide⟩, -, hlive⟩ := hin
    exact ⟨key, hlive⟩
  simp only [handed] at he
  cases hr : request.decide? with
  | some p =>
    obtain ⟨key, decide⟩ := p
    have hperform := Store.perform_of_decide? (s := y.store) (c := ⟨request, y.streams, now⟩) hr
    have hend := Store.ending y.streams now key decide hy
    cases hanswer : (y.store.reconcileWith y.streams now key decide).1 with
    | error x =>
      simp only [hperform, hanswer, Except.map] at he
      exact .inl (hshown he)
    | ok r =>
      rw [hanswer] at hend
      simp only [hperform, hanswer, Except.map, List.mem_append, List.mem_singleton] at he
      rcases he with hin | rfl
      · exact .inl (hshown hin)
      · refine .inr ⟨key, ?_⟩
        show (y.store.perform ⟨request, y.streams, now⟩).2.live? key = _
        rw [hperform]
        exact (hend.live?_ok key).trans (if_pos rfl)
  | none =>
    -- Of the other requests only a look-up shows an entry, and that is live.
    cases request with
    | lookup key =>
      have hfound : (y.store.perform ⟨.lookup key, y.streams, now⟩).1 = .ok (.found (y.store.live? key)) := by
        rw [← Store.lookup_fst]
        rfl
      rw [hfound] at he
      cases hlive : y.store.live? key with
      | none =>
        rw [hlive] at he
        exact .inl (hshown he)
      | some entry =>
        rw [hlive] at he
        have hentry : e = entry := by simpa [Request.decide?] using he
        exact .inl ⟨key, hentry ▸ hlive⟩
    | evict key =>
      simp only [Store.perform] at he
      cases hanswer : (y.store.evict now key).1 <;> simp only [hanswer, Except.map] at he <;> exact .inl (hshown he)
    | evictAll =>
      simp only [Store.perform] at he
      cases hanswer : (y.store.evictAll now).1 <;> simp only [hanswer, Except.map] at he <;> exact .inl (hshown he)
    | reconcile | reconcileWith | attach | clear => exact absurd hr (by simp [Request.decide?])

/-- An entry that a move shows to somebody is live before it or after it. -/
theorem live_of_handed (hy : y.store.Living y.streams) {m : Move} {e : Entry} (he : e ∈ y.handed m) :
    (∃ key, y.store.live? key = some e) ∨ ∃ key, (y.step m).store.live? key = some e := by
  -- A lookup and a first half show what was there before; all others show what they leave behind.
  cases m with
  | ask now request => exact live_of_handed_ask hy.sound.tidy he
  | fetch now key intent =>
    simp only [handed, Option.mem_toList, Option.map_eq_some_iff, toOption_eq_some_iff] at he
    obtain ⟨response, hresponse, rfl⟩ := he
    cases hreceive : (y.service.inquire key intent).1.receive y.streams with
    | mk received streams =>
      cases received with
      | error x =>
        simp only [Service.fetch, hreceive] at hresponse
        exact absurd hresponse (by simp)
      | ok outcome =>
        simp only [Service.fetch, hreceive] at hresponse
        have hliving := (living_inquired hy hreceive).1
        rw [step_fetch_of_ok hreceive]
        exact .inr ⟨key, live_of_handed_conclude (y := y.inquired key intent streams) hliving.sound.tidy hresponse⟩
  | inquire key intent => exact .inl ⟨key, by simpa [handed] using he⟩
  | conclude now key intent outcome =>
    simp only [handed, Option.mem_toList, Option.map_eq_some_iff, toOption_eq_some_iff] at he
    obtain ⟨response, hresponse, rfl⟩ := he
    exact .inr ⟨key, live_of_handed_conclude hy.sound.tidy hresponse⟩
  | finish now o =>
    simp only [handed, Option.mem_toList, toOption_eq_some_iff] at he
    cases hfinish : y.streams.finish o.stream with
    | error x =>
      rw [Service.finish_of_error _ _ now hfinish] at he
      exact absurd he (by simp)
    | ok streams =>
      obtain ⟨-, monitor, hafter⟩ := y.service.alike_finish_of_ok y.streams now hfinish
      obtain ⟨decide, -, hend⟩ :=
        Store.ending_attach hy.sound.tidy streams now o.key o.identity ⟨o.label, o.stream⟩
      rw [Service.finish_fst _ _ now hfinish] at he
      refine .inr ⟨o.key, ?_⟩
      show (y.service.finish y.streams now o).2.2.store.live? o.key = _
      rw [hafter]
      exact hend.live?_of_map he
  | clear now key =>
    simp only [handed, Option.mem_toList, toOption_eq_some_iff, Service.clear_fst] at he
    obtain ⟨monitor, hafter⟩ := y.service.alike_clear y.streams now key
    have hend := Store.ending y.streams now key (fun _ => .ok .clear) hy.sound.tidy
    refine .inr ⟨key, ?_⟩
    show (y.service.clear y.streams now key).2.store.live? key = _
    rw [hafter]
    exact hend.live?_of_map he
  | evict | receive | script | openStream | writeStream | sealStream | releaseStream | work | flush | close | cancel |
    restore | submit | disturb => exact absurd he List.not_mem_nil

/-- Whatever entry a move shows to somebody is sealed after it. -/
theorem sealed_of_handed (hy : y.store.Living y.streams) {m : Move} {e : Entry} (he : e ∈ y.handed m) :
    e.Sealed (y.step m).streams := by
  rcases live_of_handed hy he with ⟨key, hbefore⟩ | ⟨key, hafter⟩
  · exact (hy.sealed key e hbefore).of_keeps (y.keeps_step m)
  · exact (living_step hy m).sealed key e hafter

/-- An entry that was shown to somebody stays sealed. -/
theorem sealed_of_mem_views (moves : List Move) : ∀ {y : System}, y.store.Living y.streams → ∀ {e : Entry},
    e ∈ y.views moves → e.Sealed (y.run moves).streams := by
  induction moves with
  | nil => exact fun _ _ he => absurd he List.not_mem_nil
  | cons m rest ih =>
    intro y hy e he
    rcases List.mem_append.mp he with hnow | hlater
    · exact (sealed_of_handed hy hnow).of_keeps ((y.step m).keeps_run rest)
    · exact ih (living_step hy m) hlater

end System

/-- There is a live entry under a key of this text, with this identity, and what it holds has this size. -/
def System.Holds (z : System) (text : String) (identity : Identity) (size : Nat) (held : Entry → Option StreamId) : Prop :=
  ∃ key entry id bytes, key.display = text ∧ z.store.live? key = some entry ∧ entry.identity = identity ∧
    held entry = some id ∧ z.streams.content id = .ok bytes ∧ size = bytes.length

/-- The size that an event tells is the length of what it tells of. -/
def Event.Truthful (z : System) : Event → Prop
  | .entryCreated text identity _ size _ _ => z.Holds text identity size fun e => some e.primary
  | .entryReplaced text _ identity size _ => z.Holds text identity size fun e => some e.primary
  | .alternativeAttached text identity label size _ => z.Holds text identity size fun e => e.alternativeFor label
  | .alternativeCleared .. | .entryEvicted .. | .revalidationRejected .. => True

namespace System
variable {y : System}

theorem holds_primary {z : System} (hz : z.store.Living z.streams) {key : Key} {e : Entry} (hkey : e.key = key)
    (hlive : z.store.live? key = some e) :
    z.Holds e.key.display e.identity (z.streams.size e.primary) fun e => some e.primary := by
  obtain ⟨bytes, hbytes⟩ := (hz.sealed key e hlive).primary
  exact ⟨key, e, e.primary, bytes, by rw [hkey], hlive, rfl, rfl, hbytes, Streams.size_of_content hbytes⟩

/-- What is told of the entries is true of them once the move is made. -/
theorem truthful_of_mem_told (hy : y.store.Living y.streams) {m : Move} {event : Event} (he : event ∈ y.told m) :
    event.Truthful (y.step m) := by
  by_cases hm : m.Mediated
  · have hz : (y.step m).store.Living (y.step m).streams := living_step hy m
    have htelling := telling hy hm
    generalize y.step m = z at hz htelling ⊢
    generalize y.told m = events at he htelling
    cases htelling with
    | silent hlive => exact absurd he List.not_mem_nil
    | rejected | cleared | evicted =>
      rw [List.mem_singleton.mp he]
      trivial
    | created now key entry hsubject hnone hkey hmint hlive =>
      rw [List.mem_singleton.mp he]
      exact holds_primary hz hkey ((hlive key).trans (if_pos rfl))
    | replaced now key old entry hsubject hold hkey hplain hmint hlive =>
      rw [List.mem_singleton.mp he]
      exact holds_primary hz hkey ((hlive key).trans (if_pos rfl))
    | attached now key old a hsubject hold hkey hlive =>
      rw [List.mem_singleton.mp he]
      have hentry := (hlive key).trans (if_pos rfl)
      obtain ⟨bytes, hbytes⟩ := (hz.sealed key _ hentry).alternative a rfl
      have hheld : (old.withAlternative (some a) now.date).alternativeFor a.label = some a.stream :=
        (Entry.alternativeFor_eq_some_iff _ _ _).mpr rfl
      exact ⟨key, _, a.stream, bytes, by rw [← hkey]; rfl, hentry, rfl, hheld, hbytes, Streams.size_of_content hbytes⟩
  · rw [told_eq_nil hm] at he
    exact absurd he List.not_mem_nil

end System

/-- The live entries, their number and what is submitted are the same in both stores. -/
structure Store.Untouched (s s' : Store) : Prop where
  live : ∀ key, s'.live? key = s.live? key
  count : s'.count = s.count
  journal : s'.journal = s.journal

theorem Store.Alike.untouched {s s' : Store} (h : s.Alike s') : s.Untouched s' := by
  obtain ⟨monitor, rfl⟩ := h
  exact ⟨fun _ => rfl, rfl, rfl⟩

theorem Store.Untouched.trans {s s' s'' : Store} (h : s.Untouched s') (h' : s'.Untouched s'') : s.Untouched s'' :=
  ⟨fun key => (h'.live key).trans (h.live key), h'.count.trans h.count, h'.journal.trans h.journal⟩

/-- These events tell nothing, or no more than that a revalidation of the key was rejected. -/
def Event.Quiet (now : Moment) (key : Key) (events : List Event) : Prop :=
  events = [] ∨ ∃ reason, events = [.revalidationRejected key.display reason now.date]

namespace System
variable {y : System} {now : Moment} {key : Key} {intent : Intent} {e : Error}

/-- The second half of a fetch fails just when its decision does, and with the same error: what was decided is sealed, so it
can be served. -/
theorem conclude_or_fail (hy : y.store.Living y.streams) (now : Moment) (key : Key) (intent : Intent) (outcome : Outcome) :
    let decided := y.store.reconcileWith y.streams now key fun current => Decision.decide key current outcome intent
    (∃ r response, decided.1 = .ok r ∧ (y.service.conclude y.streams now key intent outcome).1 = .ok response) ∨
      ∃ e, decided.1 = .error e ∧ (y.service.conclude y.streams now key intent outcome).1 = .error e := by
  intro decided
  have hend := Store.ending y.streams now key (fun current => Decision.decide key current outcome intent) hy.sound.tidy
  have hanswer := y.service.conclude_fst y.streams now key intent outcome
  have hdecide : y.service.store.reconcileWith y.streams now key
    (fun current => Decision.decide key current outcome intent) = decided := rfl
  change Store.Ending _ _ _ _ _ decided.1 decided.2 at hend
  rw [hanswer, hdecide]
  cases hdecided : decided.1 with
  | error e => exact .inr ⟨e, rfl, rfl⟩
  | ok r =>
    rw [hdecided] at hend
    obtain ⟨response, hserved⟩ := y.service.exists_serve y.streams intent
      (if outcome = .notModified then .cache else .network) (hend.sealed_of_ok hy)
    exact .inl ⟨r, response, rfl, hserved⟩

theorem untouched_of_conclude (hy : y.store.Living y.streams) {outcome : Outcome}
    (h : (y.service.conclude y.streams now key intent outcome).1 = .error e) :
    y.store.Untouched (y.step (.conclude now key intent outcome)).store ∧
      Event.Quiet now key (y.told (.conclude now key intent outcome)) := by
  have hend := Store.ending y.streams now key (fun current => Decision.decide key current outcome intent) hy.sound.tidy
  have hafter := (y.service.alike_conclude y.streams now key intent outcome).untouched
  rcases conclude_or_fail hy now key intent outcome with ⟨r, response, -, hok⟩ | ⟨x, hanswer, -⟩
  · exact absurd (h.symm.trans hok) (by simp)
  · rw [hanswer] at hend
    obtain ⟨mint, hmint⟩ := hend.error_eq
    have hsame : y.store.Untouched (y.store.reconcileWith y.streams now key fun current =>
        Decision.decide key current outcome intent).2 := by
      rw [hmint]
      exact ⟨fun _ => rfl, rfl, rfl⟩
    refine ⟨hsame.trans hafter, ?_⟩
    rw [told_conclude, hanswer]
    cases x with
    | inconsistentRevalidation k reason => exact .inr ⟨_, rfl⟩
    | _ => exact .inl rfl

theorem untouched_of_fetch (hy : y.store.Living y.streams)
    (h : (y.service.fetch y.streams now key intent).1 = .error e) :
    y.store.Untouched (y.step (.fetch now key intent)).store ∧ Event.Quiet now key (y.told (.fetch now key intent)) := by
  have hasked := (y.service.alike_inquire key intent).untouched
  cases hreceive : (y.service.inquire key intent).1.receive y.streams with
  | mk received streams =>
    cases received with
    | error x =>
      have hcall : y.call? (.fetch now key intent) = none := by simp only [call?, hreceive]
      refine ⟨?_, .inl (told_of_call?_eq_none hcall)⟩
      simp only [step, Service.fetch, hreceive]
      exact hasked
    | ok outcome =>
      simp only [Service.fetch, hreceive] at h
      have hlast := untouched_of_conclude (y := y.inquired key intent streams) (living_inquired hy hreceive).1 h
      rw [step_fetch_of_ok hreceive, told_fetch hreceive]
      exact ⟨hasked.trans hlast.1, hlast.2⟩

/-- Entries hold sealed streams only. Every live entry, and every entry that a run has shown to anybody, has sealed streams;
whatever happens later, their content stays as it is and the entry has the same record. The sizes that events tell are
therefore the lengths of what is live. A fetch that fails has left the live entries, their number and what is submitted as
they were, and has told at most that the revalidation was rejected; this holds for each half of a fetch, whatever comes
between them. -/
theorem entries_hold_sealed_streams (config : Config) (persistent : Bool) (origin : Origin) (publisher : Publisher)
    (backend : Backend) (moves : List Move) :
    let start := start config persistent origin publisher backend
    let y := start.run moves
    (∀ e, (e ∈ start.views moves ∨ ∃ key, y.store.live? key = some e) → y.Lasts e) ∧
    (∀ m, ∀ event ∈ y.told m, event.Truthful (y.step m)) ∧
    (∀ now key intent e, (y.service.fetch y.streams now key intent).1 = .error e →
      y.store.Untouched (y.step (.fetch now key intent)).store ∧
      Event.Quiet now key (y.told (.fetch now key intent))) ∧
    (∀ key intent, y.store.Untouched (y.step (.inquire key intent)).store ∧ y.told (.inquire key intent) = []) ∧
    (∀ now key intent outcome e, (y.service.conclude y.streams now key intent outcome).1 = .error e →
      y.store.Untouched (y.step (.conclude now key intent outcome)).store ∧
      Event.Quiet now key (y.told (.conclude now key intent outcome))) := by
  intro start y
  have hstart : start.store.Living start.streams := living_start config persistent origin publisher backend
  have hy : y.store.Living y.streams := living_run hstart moves
  refine ⟨?_, fun m event he => truthful_of_mem_told hy he, fun now key intent e h => untouched_of_fetch hy h, ?_,
    fun now key intent outcome e h => untouched_of_conclude hy h⟩
  · rintro e (hview | ⟨key, hlive⟩)
    · exact lasts_of_sealed (sealed_of_mem_views moves hstart hview)
    · exact lasts_of_sealed (hy.sealed key e hlive)
  · exact fun key intent => ⟨(y.service.alike_inquire key intent).untouched, rfl⟩

end System
end ResponseCache
