import ResponseCache.Proofs.Journal.Turn
import ResponseCache.Proofs.Results
import ResponseCache.Proofs.Store.Verdict

namespace ResponseCache

open Store (closedError)

/-- How an answer that is given where nothing is taken in compares with the one that is given where everything is: the error
of the closed journal in place of a change, and else the same, which does not blame the persistence. -/
structure Gated {α : Type} (changes : Prop) (answer reference : Except Error α) : Prop where
  refused : changes → answer = .error closedError
  same : ¬changes → answer = reference
  genuine : ∀ reason, reference ≠ .error (.persistence reason)

namespace Gated
variable {α β : Type} {changes changes' : Prop} {answer reference : Except Error α}

theorem map (h : Gated changes answer reference) (f : α → β) : Gated changes (answer.map f) (reference.map f) := by
  refine ⟨fun hc => by rw [h.refused hc]; rfl, fun hc => by rw [h.same hc], ?_⟩
  intro reason he
  cases reference with
  | ok a => exact absurd he (by simp [Except.map])
  | error e => exact h.genuine reason (congrArg Except.error (Except.error.inj he))

theorem congr (h : Gated changes answer reference) (hc : changes' ↔ changes) : Gated changes' answer reference :=
  ⟨fun hchanges => h.refused (hc.mp hchanges), fun hnot => h.same fun hchanges => hnot (hc.mpr hchanges), h.genuine⟩

theorem of_ok {a : α} (hc : ¬changes) : Gated changes (.ok a) (.ok a) :=
  ⟨fun h => absurd h hc, fun _ => rfl, by simp⟩

end Gated

/-- The client does not itself blame the persistence. -/
def Request.Candid : Request → Prop
  | .reconcileWith _ decide => ∀ current reason, decide current ≠ .error (.persistence reason)
  | _ => True

theorem Request.Candid.ne_persistence {request : Request} {key : Key} {decide : Option Entry → Except Error Decision}
    (h : request.Candid) (hr : request.decide? = some (key, decide)) (current : Option Entry) (reason : String) :
    decide current ≠ .error (.persistence reason) := by
  cases request with
  | reconcileWith k d =>
    cases hr
    exact h current reason
  | attach k expected a =>
    cases hr
    dsimp only
    split <;> simp
  | reconcile | clear =>
    cases hr
    simp
  | lookup | evict | evictAll => exact absurd hr (by simp [Request.decide?])

theorem Decision.decide_ne_persistence (key : Key) (current : Option Entry) (outcome : Outcome) (intent : Intent)
    (reason : String) : Decision.decide key current outcome intent ≠ .error (.persistence reason) := by
  cases current with
  | none => cases outcome <;> cases intent <;> simp [Decision.decide]
  | some entry =>
    obtain ⟨decision, hdecision⟩ := Decision.exists_decide key entry outcome intent
    simp [hdecision]

namespace Store

/-- The second store is the first one, whose journal is closed, as it would be with its journal open. -/
structure Shut (s t : Store) : Prop where
  slots : t.slots = s.slots
  mint : t.mint = s.mint
  count : t.count = s.count
  closed : ¬s.IsOpen
  isOpen : t.IsOpen

section
variable {s t : Store} {streams : Streams} {now : Moment}

theorem Shut.live?_eq (h : s.Shut t) (key : Key) : t.live? key = s.live? key := by rw [live?, live?, h.slots]

theorem Shut.living (h : s.Shut t) (hs : s.Living streams) : t.Living streams :=
  hs.of_eq h.slots (hs.sound.of_eq h.slots h.mint) h.count

theorem Shut.of_alike {s' t' : Store} (h : s.Shut t) (hs : s.Alike s') (ht : t.Alike t') : s'.Shut t' := by
  obtain ⟨monitor, rfl⟩ := hs
  obtain ⟨monitor', rfl⟩ := ht
  exact ⟨h.slots, h.mint, h.count, h.closed, h.isOpen⟩

theorem Shut.reconcileWith (h : s.Shut t) (hs : s.Living streams) (now : Moment) (key : Key)
    (decide : Option Entry → Except Error Decision)
    (hd : ∀ reason, decide (s.live? key) ≠ .error (.persistence reason)) :
    Gated (∃ k, (t.reconcileWith streams now key decide).2.live? k ≠ t.live? k)
      (s.reconcileWith streams now key decide).1 (t.reconcileWith streams now key decide).1 := by
  have hs' := (hs.reconcileWith_eq now key decide).1
  have ht' := ((h.living hs).reconcileWith_eq now key decide).1
  have hchanges := (h.living hs).live?_changes_iff h.isOpen now key decide
  rw [if_neg h.closed] at hs'
  rw [if_pos h.isOpen, h.live?_eq, h.mint] at ht'
  rw [h.live?_eq, h.mint] at hchanges
  rw [hs', ht']
  refine ⟨fun hc => turnAway_of_alters (hchanges.mp hc), ?_, fun reason => verdict_ne_persistence (hd reason)⟩
  exact fun hnot => turnAway_of_not_alters fun halters => hnot (hchanges.mpr halters)

theorem Shut.attach (h : s.Shut t) (hs : s.Living streams) (now : Moment) (key : Key) (expected : Identity)
    (a : Alternative) : Gated (∃ k, (t.attach streams now key expected a).2.live? k ≠ t.live? k)
      (s.attach streams now key expected a).1 (t.attach streams now key expected a).1 := by
  refine h.reconcileWith hs now key _ ?_
  dsimp only
  split <;> simp

theorem Shut.evict (h : s.Shut t) (hs : s.Living streams) (now : Moment) (key : Key) :
    Gated (∃ k, (t.evict now key).2.live? k ≠ t.live? k) (s.evict now key).1 (t.evict now key).1 := by
  have ht := h.living hs
  have hev := eviction ht.sound.tidy now key
  have hfirst := evict_fst hs.sound.tidy now key
  have hlast := evict_fst ht.sound.tidy now key
  rw [h.live?_eq] at hlast
  rw [hfirst, hlast]
  cases hlive : s.live? key with
  | none =>
    refine .of_ok ?_
    rintro ⟨k, hk⟩
    rw [hlast, hlive] at hev
    rw [hev.live?_ok k] at hk
    split at hk
    · rename_i hkey
      exact hk ((hkey ▸ h.live?_eq key).trans (hkey ▸ hlive)).symm
    · exact hk rfl
  | some entry =>
    simp only [if_neg h.closed, if_pos h.isOpen]
    refine ⟨fun _ => rfl, ?_, by simp⟩
    -- Where changes are taken in, the entry is gone afterwards.
    intro hnot
    refine absurd ⟨key, ?_⟩ hnot
    rw [hlast, hlive] at hev
    simp only [if_pos h.isOpen] at hev
    have hgone := (hev.live?_ok key).trans (if_pos rfl)
    rw [hgone, h.live?_eq, hlive]
    simp

theorem Shut.evictAll (h : s.Shut t) (hs : s.Living streams) (now : Moment) :
    Gated (∃ k, (t.evictAll now).2.live? k ≠ t.live? k) (s.evictAll now).1 (t.evictAll now).1 := by
  have ht := h.living hs
  have hkeys : t.keys = s.keys := by rw [keys, keys, h.slots]
  rw [evictAll_of_not_isOpen hs.sound.tidy h.closed now]
  by_cases hnone : s.keys = []
  · have hall : t.evictAll now = (.ok 0, t) := by
      unfold Store.evictAll
      rw [hkeys, hnone]
      rfl
    rw [if_pos hnone, hall]
    exact .of_ok (by simp)
  · obtain ⟨n, hn⟩ := exists_evictAll_of_isOpen ht.sound.tidy h.isOpen now
    rw [if_neg hnone, hn]
    refine ⟨fun _ => rfl, ?_, by simp⟩
    intro hnot
    refine absurd ?_ hnone
    rw [← hkeys]
    refine (keys_eq_nil_iff ht.sound.tidy).mpr fun key => ?_
    by_contra hlive
    refine hnot ⟨key, ?_⟩
    rw [live?_evictAll ht.sound.tidy hn]
    exact Ne.symm hlive

theorem Shut.perform {c : Call} (h : s.Shut t) (hs : s.Living c.streams) (hc : c.request.Candid) :
    Gated (∃ k, (t.perform c).2.live? k ≠ t.live? k) (s.perform c).1 (t.perform c).1 := by
  cases hr : c.request.decide? with
  | some p =>
    obtain ⟨key, decide⟩ := p
    rw [perform_of_decide? hr, perform_of_decide? hr]
    exact (h.reconcileWith hs c.now key decide (hc.ne_persistence hr (s.live? key))).map Reply.reconciled
  | none =>
    obtain ⟨request, streams, now⟩ := c
    cases request with
    | lookup key =>
      have hfound (u : Store) : (u.perform ⟨.lookup key, streams, now⟩).1 = .ok (.found (u.live? key)) := by
        rw [← lookup_fst]
        rfl
      rw [hfound, hfound, h.live?_eq]
      refine .of_ok ?_
      rintro ⟨k, hk⟩
      obtain ⟨monitor, hsame⟩ := t.lookup_snd key
      exact hk (congrArg (·.live? k) hsame)
    | evict key => exact (h.evict hs now key).map Reply.removed
    | evictAll => exact (h.evictAll hs now).map Reply.emptied
    | reconcile | reconcileWith | attach | clear => exact absurd hr (by simp [Request.decide?])

end
end Store

namespace Streams
variable {s : Streams} {id : StreamId} {bytes : Bytes} {e : Error}

theorem write_ne_persistence (h : s.write id bytes = .error e) (reason : String) : e ≠ .persistence reason := by
  rintro rfl
  simp only [write, update] at h
  cases hget : s.get? id with
  | none => simp [hget] at h
  | some stream =>
    obtain ⟨contentType, limit, phase⟩ := stream
    cases phase <;> cases limit <;> simp only [hget, Stream.write] at h
    all_goals first | (split at h <;> simp_all [Except.map]) | simp_all [Except.map]

theorem finish_ne_persistence (h : s.finish id = .error e) (reason : String) : e ≠ .persistence reason := by
  rintro rfl
  simp only [finish, update] at h
  cases hget : s.get? id with
  | none => simp [hget] at h
  | some stream =>
    obtain ⟨contentType, limit, phase⟩ := stream
    cases phase <;> simp [hget, Stream.finish, Except.map] at h

end Streams

namespace System

/-- The system as it would be with its journal open. -/
def reopened (y : System) : System := y.mapJournal fun j => { j with accepting := true }

/-- The second system is the first one, whose journal is closed, as it would be with its journal open. -/
structure Shut (y w : System) : Prop where
  streams : w.streams = y.streams
  origin : w.service.origin = y.service.origin
  living : y.store.Living y.streams
  store : y.store.Shut w.store

/-- The move changes a live entry. -/
def Changes (y : System) (m : Move) : Prop := ∃ key, (y.step m).store.live? key ≠ y.store.live? key

/-- A move is refused in the first system just for the changes that it would make in the second one, and else gives the same
result in both. -/
structure Gates (y w : System) (m : Move) : Prop where
  refused : w.Changes m → (y.result? m).bind Result.error? = some closedError
  same : ¬w.Changes m → y.result? m = w.result? m
  genuine : ∀ reason, (w.result? m).bind Result.error? ≠ some (.persistence reason)

/-- No records are taken in, and the client does not itself blame the persistence. -/
def Move.Candid : Move → Prop
  | .restore _ _ => False
  | .ask _ request => request.Candid
  | _ => True

variable {y w : System}

theorem shut_reopened (hy : y.store.Living y.streams) (hclosed : ¬y.store.IsOpen) : y.Shut y.reopened := by
  unfold reopened mapJournal
  cases hj : y.store.journal with
  | none => exact absurd (fun j hsome => absurd (hj.symm.trans hsome) (by simp)) hclosed
  | some j =>
    refine ⟨rfl, rfl, hy, rfl, rfl, rfl, hclosed, ?_⟩
    intro j' hj'
    rw [← Option.some.inj hj']

namespace Gates
variable {m : Move}

theorem of_gated {α : Type} {answer reference : Except Error α} (f : Except Error α → Result)
    (h : Gated (w.Changes m) answer reference) (hy : y.result? m = some (f answer)) (hw : w.result? m = some (f reference))
    (hf : ∀ a, (f a).error? = failure? a) : y.Gates w m := by
  refine ⟨?_, fun hnot => by rw [hy, hw, h.same hnot], ?_⟩
  · intro hc
    rw [hy, h.refused hc]
    exact hf _
  · intro reason
    rw [hw, Option.bind_some, hf, Ne, failure?_eq_some_iff]
    exact h.genuine reason

theorem of_same (hquiet : ¬w.Changes m) (hsame : y.result? m = w.result? m)
    (hgenuine : ∀ reason, (w.result? m).bind Result.error? ≠ some (.persistence reason)) : y.Gates w m :=
  ⟨fun hc => absurd hc hquiet, fun _ => hsame, hgenuine⟩

/-- The error of the closed journal shows that there is something to change. -/
theorem error_iff (h : y.Gates w m) : (y.result? m).bind Result.error? = some closedError ↔ w.Changes m := by
  refine ⟨?_, h.refused⟩
  intro he
  by_contra hnot
  exact h.genuine _ (h.same hnot ▸ he)

end Gates

theorem not_changes_of_call? {m : Move} (hcall : y.call? m = none) (hm : ¬m.Restores) : ¬y.Changes m := by
  rintro ⟨key, hkey⟩
  refine hkey ?_
  rw [Store.live?, Store.live?, (same_of_call?_eq_none hcall hm).1]

theorem changes_iff_of_alike {m : Move} {s : Store} (h : s.Alike (y.step m).store) :
    y.Changes m ↔ ∃ key, s.live? key ≠ y.store.live? key := by
  obtain ⟨monitor, hafter⟩ := h
  unfold Changes
  rw [hafter]
  rfl

namespace Shut

theorem ask (h : y.Shut w) (now : Moment) {request : Request} (hc : request.Candid) : y.Gates w (.ask now request) := by
  have hgated := h.store.perform (c := ⟨request, y.streams, now⟩) h.living hc
  refine .of_gated .replied (m := .ask now request) (hgated.congr ?_) rfl ?_ fun _ => rfl
  · rw [← h.streams]
    rfl
  · rw [← h.streams]
    rfl

theorem conclude (h : y.Shut w) (now : Moment) (key : Key) (intent : Intent) (outcome : Outcome) :
    y.Gates w (.conclude now key intent outcome) := by
  have hgated := h.store.reconcileWith h.living now key (fun current => Decision.decide key current outcome intent)
    (Decision.decide_ne_persistence key _ outcome intent)
  have hw : w.store.Living w.streams := h.streams ▸ h.store.living h.living
  have hfirst := y.service.conclude_fst y.streams now key intent outcome
  have hlast := w.service.conclude_fst w.streams now key intent outcome
  have hchanges := changes_iff_of_alike (y := w) (m := .conclude now key intent outcome)
    (w.service.alike_conclude w.streams now key intent outcome)
  rw [← h.streams] at hgated hfirst
  suffices hconcluded : Gated (w.Changes (.conclude now key intent outcome))
      (y.service.conclude y.streams now key intent outcome).1
      (w.service.conclude w.streams now key intent outcome).1 from
    .of_gated .served hconcluded rfl rfl fun _ => rfl
  refine ⟨?_, ?_, ?_⟩
  · intro hc
    have hrefused := hgated.refused (hchanges.mp hc)
    change (y.service.store.reconcileWith _ _ _ _).1 = _ at hrefused
    rw [← h.streams, hfirst, hrefused]
  · intro hnot
    have hsame := hgated.same fun hc => hnot (hchanges.mpr hc)
    change (y.service.store.reconcileWith _ _ _ _).1 = (w.service.store.reconcileWith _ _ _ _).1 at hsame
    rw [← h.streams, hfirst, hlast, hsame]
    split
    · exact Service.serve_fst_eq _ _ w.streams intent _ _
    · rfl
  · intro reason he
    -- To serve a live entry goes well, so the error is that of the decision.
    rcases conclude_or_fail hw now key intent outcome with ⟨r, response, -, hok⟩ | ⟨e, hdecided, hfail⟩
    · exact absurd (he.symm.trans hok) (by simp)
    · obtain rfl := Except.error.inj (hfail.symm.trans he)
      exact hgated.genuine reason hdecided

theorem inquire_eq (h : y.Shut w) (key : Key) (intent : Intent) :
    (w.service.inquire key intent).1 = (y.service.inquire key intent).1 ∧
      (w.service.inquire key intent).2.origin = (y.service.inquire key intent).2.origin := by
  have hlive : w.service.store.live? key = y.service.store.live? key := h.store.live?_eq key
  have hquestion : w.service.question key intent = y.service.question key intent := by
    simp only [Service.question, Store.identityOf, hlive]
  obtain ⟨hasked, horigin⟩ := y.service.inquire_eq key intent
  obtain ⟨hasked', horigin'⟩ := w.service.inquire_eq key intent
  rw [h.origin, hquestion] at hasked' horigin'
  exact ⟨hasked'.trans hasked.symm, horigin'.trans horigin.symm⟩

theorem inquired (h : y.Shut w) (key : Key) (intent : Intent) {received : Except Error Outcome} {streams : Streams}
    (hreceive : (y.service.inquire key intent).1.receive y.streams = (received, streams)) :
    (w.service.inquire key intent).1.receive w.streams = (received, streams) ∧
      (y.inquired key intent streams).Shut (w.inquired key intent streams) := by
  obtain ⟨hasked, horigin⟩ := h.inquire_eq key intent
  have hreceived : (w.service.inquire key intent).1.receive w.streams = (received, streams) := by
    rw [h.streams, hasked, hreceive]
  refine ⟨hreceived, rfl, horigin, (living_inquired h.living hreceive).1, ?_⟩
  exact h.store.of_alike (y.service.alike_inquire key intent) (w.service.alike_inquire key intent)

theorem fetch (h : y.Shut w) (now : Moment) (key : Key) (intent : Intent) : y.Gates w (.fetch now key intent) := by
  cases hreceive : (y.service.inquire key intent).1.receive y.streams with
  | mk received streams =>
    obtain ⟨hreceive', hinquired⟩ := h.inquired key intent hreceive
    cases received with
    | error e =>
      have hcall : w.call? (.fetch now key intent) = none := by simp only [call?, hreceive']
      have hresult := (fetch_of_error now hreceive).1
      have hresult' := (fetch_of_error now hreceive').1
      refine .of_same (not_changes_of_call? hcall id) ?_ ?_
      · simp only [result?, hresult, hresult']
      · simp only [result?, hresult', Option.bind_some, Result.error?, failure?]
        rintro reason ⟨⟩
        cases hanswer : (y.service.inquire key intent).1 <;> simp [hanswer, Answer.receive] at hreceive
    | ok outcome =>
      -- Between its halves a fetch changes no entry, so it comes to its second half.
      have hlast := hinquired.conclude now key intent outcome
      have hresult : y.result? (.fetch now key intent) =
          (y.inquired key intent streams).result? (.conclude now key intent outcome) :=
        congrArg (fun a => some (Result.served a)) (fetch_fst_of_ok hreceive)
      have hresult' : w.result? (.fetch now key intent) =
          (w.inquired key intent streams).result? (.conclude now key intent outcome) :=
        congrArg (fun a => some (Result.served a)) (fetch_fst_of_ok hreceive')
      have hlive := (living_inquired (h.streams ▸ h.store.living h.living) hreceive').2.1
      have hchanges : w.Changes (.fetch now key intent) ↔
          (w.inquired key intent streams).Changes (.conclude now key intent outcome) := by
        unfold Changes
        rw [step_fetch_of_ok hreceive', hlive]
      exact ⟨fun hc => hresult ▸ hlast.refused (hchanges.mp hc),
        fun hnot => hresult ▸ hresult' ▸ hlast.same fun hc => hnot (hchanges.mpr hc), hresult' ▸ hlast.genuine⟩

theorem finish (h : y.Shut w) (now : Moment) (o : Output) : y.Gates w (.finish now o) := by
  cases hfinish : y.streams.finish o.stream with
  | error e =>
    have hfinish' : w.streams.finish o.stream = .error e := h.streams ▸ hfinish
    have hcall : w.call? (.finish now o) = none := by simp only [call?, hfinish']
    refine .of_same (not_changes_of_call? hcall id) ?_ ?_
    · simp only [result?, Service.finish_of_error _ _ now hfinish, Service.finish_of_error _ _ now hfinish']
    · simp only [result?, Service.finish_of_error _ _ now hfinish', Option.bind_some, Result.error?, failure?]
      rintro reason ⟨⟩
      exact Streams.finish_ne_persistence hfinish reason rfl
  | ok streams =>
    have hfinish' : w.streams.finish o.stream = .ok streams := h.streams ▸ hfinish
    have hs : y.store.Living streams := h.living.of_keeps (Streams.keeps_finish hfinish)
    have hgated := (h.store.attach hs now o.key o.identity ⟨o.label, o.stream⟩).map Reconciliation.entry
    have hchanges := changes_iff_of_alike (y := w) (m := .finish now o)
      (w.service.alike_finish_of_ok w.streams now hfinish').2
    exact .of_gated .entered (hgated.congr hchanges)
      (congrArg (fun a => some (Result.entered a)) (Service.finish_fst _ _ now hfinish))
      (congrArg (fun a => some (Result.entered a)) (Service.finish_fst _ _ now hfinish')) fun _ => rfl

theorem clear (h : y.Shut w) (now : Moment) (key : Key) : y.Gates w (.clear now key) := by
  have hgated := (h.store.reconcileWith h.living now key (fun _ => .ok .clear) (by simp)).map
    Reconciliation.entry
  rw [← h.streams] at hgated
  have hchanges := changes_iff_of_alike (y := w) (m := .clear now key) (w.service.alike_clear w.streams now key)
  refine .of_gated .entered (hgated.congr hchanges) ?_ ?_ fun _ => rfl
  · exact congrArg (fun a => some (Result.entered a)) (h.streams ▸ Service.clear_fst _ _ now key)
  · exact congrArg (fun a => some (Result.entered a)) (Service.clear_fst _ _ now key)

theorem evict (h : y.Shut w) (now : Moment) (key : Key) : y.Gates w (.evict now key) := by
  have hgated := h.store.evict h.living now key
  have hchanges := changes_iff_of_alike (y := w) (m := .evict now key) (w.service.alike_evict now key)
  exact .of_gated .removed (hgated.congr hchanges)
    (congrArg (fun a => some (Result.removed a)) (y.service.evict_fst now key))
    (congrArg (fun a => some (Result.removed a)) (w.service.evict_fst now key)) fun _ => rfl

theorem gates (h : y.Shut w) {m : Move} (hm : m.Candid) : y.Gates w m := by
  have hquiet (m : Move) (hcall : w.call? m = none) (hrestores : ¬m.Restores) := not_changes_of_call? hcall hrestores
  -- Moves that decide and evict nothing give the same result in both systems.
  cases m with
  | ask now request => exact h.ask now hm
  | fetch now key intent => exact h.fetch now key intent
  | inquire key intent =>
    refine .of_same (hquiet _ rfl id) ?_ (by simp [result?, Result.error?])
    simp only [result?, (h.inquire_eq key intent).1]
  | receive answer =>
    refine .of_same (hquiet _ rfl id) ?_ ?_
    · simp only [result?, h.streams]
    · cases answer <;> simp [result?, Result.error?, failure?, Answer.receive]
  | conclude now key intent outcome => exact h.conclude now key intent outcome
  | finish now o => exact h.finish now o
  | clear now key => exact h.clear now key
  | evict now key => exact h.evict now key
  | openStream stream =>
    refine .of_same (hquiet _ rfl id) ?_ (by simp [result?, Result.error?])
    simp only [result?, h.streams]
  | writeStream stream bytes =>
    refine .of_same (hquiet _ rfl id) ?_ ?_
    · simp only [result?, h.streams]
    · simp only [result?, Option.bind_some, Result.error?, failure?_map, Ne, failure?_eq_some_iff]
      exact fun reason he => Streams.write_ne_persistence he reason rfl
  | sealStream stream =>
    refine .of_same (hquiet _ rfl id) ?_ ?_
    · simp only [result?, h.streams]
    · simp only [result?, Option.bind_some, Result.error?, failure?_map, Ne, failure?_eq_some_iff]
      exact fun reason he => Streams.finish_ne_persistence he reason rfl
  | script | releaseStream | work | flush | close | cancel | submit | disturb =>
    exact .of_same (hquiet _ rfl id) rfl (by simp [result?])
  | restore => exact hm.elim

/-- The decisions that would change an entry are those that would revise it. -/
theorem changes_decide_iff (h : y.Shut w) (now : Moment) {request : Request} {key : Key}
    {decide : Option Entry → Except Error Decision} (hr : request.decide? = some (key, decide)) :
    w.Changes (.ask now request) ↔ ∃ decision entry mint, decide (y.store.live? key) = .ok decision ∧
      Store.Revision y.streams now key y.store.mint (y.store.live? key) decision entry mint := by
  have hw := h.store.living h.living
  have hchanges := hw.live?_changes_iff h.store.isOpen now key decide
  rw [h.store.live?_eq, h.store.mint] at hchanges
  refine Iff.trans ?_ (hchanges.trans Store.alters_iff)
  have hperform := Store.perform_of_decide? (s := w.store) (c := ⟨request, y.streams, now⟩) hr
  show (∃ k, (w.store.perform ⟨request, w.streams, now⟩).2.live? k ≠ w.store.live? k) ↔ _
  rw [h.streams, hperform]

/-- A decision that leaves the entry as it is goes well. -/
theorem perform_of_stands (h : y.Shut w) (now : Moment) {request : Request} {key : Key}
    {decide : Option Entry → Except Error Decision} (hr : request.decide? = some (key, decide)) {decision : Decision}
    {entry : Entry} (hlive : y.store.live? key = some entry) (hd : decide (some entry) = .ok decision)
    (hstands : Store.Stands y.streams entry decision) : (y.store.perform ⟨request, y.streams, now⟩).1 =
      .ok (.reconciled ⟨entry, decision.kind, entry.identity, false⟩) := by
  have hanswer := (h.living.reconcileWith_eq now key decide).1
  rw [if_neg h.store.closed, hlive, Store.verdict_of_stands hd hstands] at hanswer
  rw [Store.perform_of_decide? (c := ⟨request, y.streams, now⟩) hr, hanswer]
  rfl

theorem changes_evict_iff (h : y.Shut w) (now : Moment) (key : Key) :
    w.Changes (.ask now (.evict key)) ↔ y.store.live? key ≠ none := by
  have hfirst := Store.evict_fst h.living.sound.tidy now key
  have hgates : y.Gates w (.ask now (.evict key)) := h.ask now trivial
  rw [← hgates.error_iff]
  simp only [result?, Store.perform, hfirst, Option.bind_some, Result.error?, failure?_map]
  cases y.store.live? key with
  | none => simp [failure?]
  | some entry => simp [failure?, h.store.closed]

theorem changes_evictAll_iff (h : y.Shut w) (now : Moment) : w.Changes (.ask now .evictAll) ↔ y.store.keys ≠ [] := by
  have hall := Store.evictAll_of_not_isOpen h.living.sound.tidy h.store.closed now
  have hgates : y.Gates w (.ask now .evictAll) := h.ask now trivial
  rw [← hgates.error_iff]
  simp only [result?, Store.perform, hall, Option.bind_some, Result.error?, failure?_map]
  by_cases hnone : y.store.keys = [] <;> simp [hnone, failure?]

end Shut
end System

namespace Store
variable {s s' s'' : Store} {streams : Streams} {now : Moment} {key : Key}

/-- Nothing was taken in since: the entries and their number are the same, and what waits to be written has at most become
less. -/
structure Frozen (s s' : Store) : Prop where
  slots : s'.slots = s.slots
  count : s'.count = s.count
  journal : ∃ j j', s.journal = some j ∧ s'.journal = some j' ∧ j'.accepting = false ∧ j'.lastSeq = j.lastSeq ∧
    j'.queue <:+ j.queue

theorem not_isOpen_iff : ¬s.IsOpen ↔ ∃ j, s.journal = some j ∧ j.accepting = false := by
  unfold IsOpen
  cases s.journal <;> simp

theorem Frozen.refl (hclosed : ¬s.IsOpen) : s.Frozen s := by
  obtain ⟨j, hj, hshut⟩ := not_isOpen_iff.mp hclosed
  exact ⟨rfl, rfl, j, j, hj, hj, hshut, rfl, List.suffix_rfl⟩

theorem Frozen.not_isOpen (h : s.Frozen s') : ¬s'.IsOpen := by
  obtain ⟨-, -, -, j', -, hj', hshut, -⟩ := h
  exact not_isOpen_iff.mpr ⟨j', hj', hshut⟩

theorem Frozen.trans (h : s.Frozen s') (h' : s'.Frozen s'') : s.Frozen s'' := by
  obtain ⟨hslots, hcount, j, j', hj, hj', -, hseq, hqueue⟩ := h
  obtain ⟨hslots', hcount', i, j'', hi, hj'', hshut, hseq', hqueue'⟩ := h'
  obtain rfl := Option.some.inj (hj'.symm.trans hi)
  exact ⟨hslots'.trans hslots, hcount'.trans hcount, j, j'', hj, hj'', hshut, hseq'.trans hseq, hqueue'.trans hqueue⟩

/-- What changes the journal in the place of a frozen store may empty its queue, but takes nothing in. -/
theorem Frozen.setJournal (h : s.Frozen s') {j i : Journal} (monitor : Monitor) (hj : s'.journal = some j)
    (haccepting : i.accepting = j.accepting ∨ i.accepting = false) (hseq : i.lastSeq = j.lastSeq)
    (hqueue : i.queue <:+ j.queue) : s.Frozen { s' with journal := some i, monitor } := by
  obtain ⟨hslots, hcount, j₀, j', hj₀, hj', hshut, hseq', hqueue'⟩ := h
  obtain rfl := Option.some.inj (hj.symm.trans hj')
  refine ⟨hslots, hcount, j₀, i, hj₀, rfl, ?_, hseq.trans hseq', hqueue.trans hqueue'⟩
  exact haccepting.elim (·.trans hshut) id

theorem Ending.of_not_isOpen {decide : Option Entry → Except Error Decision} {answer : Except Error Reconciliation}
    (h : Ending s streams now key decide answer s') (hclosed : ¬s.IsOpen) :
    ∃ mint monitor, s' = { s with mint, monitor } := by
  obtain ⟨j, hj, hshut⟩ := not_isOpen_iff.mp hclosed
  cases h with
  | undecided e hd => exact ⟨_, _, rfl⟩
  | unresolved decision e mint hd h => exact ⟨_, _, rfl⟩
  | stands decision entry hd hlive h => exact ⟨_, _, rfl⟩
  | unshipped decision entry mint e hd h hship => exact ⟨_, _, rfl⟩
  | revised decision entry mint s' hd h hship =>
    cases hship with
    | unkept hnone => exact absurd (hj.symm.trans hnone) (by simp)
    | taken j' record notices hj' hr hopen =>
      obtain rfl := Option.some.inj (hj.symm.trans hj')
      exact absurd (hshut.symm.trans hopen) (by simp)

theorem Eviction.of_not_isOpen {answer : Except Error (Option Identity)} (h : Eviction s now key answer s')
    (hclosed : ¬s.IsOpen) : s' = s := by
  cases h with
  | nothing hlive => rfl
  | refused entry e hlive hsub => rfl
  | removed entry s' hlive hsub => exact absurd hsub.isOpen_of_ok hclosed

end Store

namespace System
variable {y : System}

theorem kept_frozen (s : Store) : Kept fun _ _ s' => s'.Tidy ∧ s.Frozen s' where
  alike := by
    rintro _ _ s' _ ⟨monitor, rfl⟩ ⟨hs, h⟩
    exact ⟨hs.of_slots rfl, h.slots, h.count, h.journal⟩
  streams := fun _ h => h
  decide := by
    rintro streams _ s' now key decide ⟨hs, h⟩
    have hend := Store.ending streams now key decide hs
    obtain ⟨mint, monitor, hsame⟩ := hend.of_not_isOpen h.not_isOpen
    rw [hsame]
    exact ⟨hs.of_slots rfl, h.slots, h.count, h.journal⟩
  evict := by
    rintro _ _ s' now key ⟨hs, h⟩
    rw [(Store.eviction hs now key).of_not_isOpen h.not_isOpen]
    exact ⟨hs, h⟩
  work := by
    rintro _ _ s' j p step hj hstage ⟨hs, h⟩
    obtain ⟨haccepting, hseq, hqueue⟩ := hstage.intake
    exact ⟨hs.of_slots rfl, h.setJournal _ hj (.inl haccepting) hseq hqueue⟩
  collect := fun b hj _ ⟨hs, h⟩ => ⟨hs.of_slots rfl, h.setJournal _ hj (.inl rfl) rfl List.suffix_rfl⟩
  close := fun hj ⟨hs, h⟩ => ⟨hs.of_slots rfl, h.setJournal _ hj (.inr rfl) rfl List.suffix_rfl⟩

theorem frozen_step (hy : y.store.Tidy) (hclosed : ¬y.store.IsOpen) {m : Move} (hm : ¬m.Restores) :
    y.store.Frozen (y.step m).store := by
  have hrefl := Store.Frozen.refl hclosed
  have hordinary (m : Move) (h : m.Ordinary) : y.store.Frozen (y.step m).store :=
    ((kept_frozen y.store).step h ⟨hy, hrefl⟩).2
  cases m with
  | restore now records => exact absurd trivial hm
  | cancel =>
    obtain ⟨j, hj, -⟩ := Store.not_isOpen_iff.mp hclosed
    have hfrozen := hrefl.setJournal (i := j.cancel) y.store.monitor hj (.inr rfl) rfl List.suffix_rfl
    simp only [step, mapJournal, hj]
    exact hfrozen
  | submit now change =>
    -- A closed journal refuses what is submitted past the store too.
    have hsub := y.store.submission now change
    simp only [step]
    cases hsubmit : y.store.submit now change with
    | error e => exact hrefl
    | ok s => exact absurd ((hsubmit ▸ hsub).isOpen_of_ok) hclosed
  | disturb backend => exact hrefl
  | ask | fetch | inquire | receive | conclude | finish | clear | evict | script | openStream | writeStream |
    sealStream | releaseStream | work | flush | close => exact hordinary _ trivial

theorem frozen_run (moves : List Move) : ∀ {y : System}, y.store.Living y.streams → ¬y.store.IsOpen →
    (∀ m ∈ moves, ¬m.Restores) → y.store.Frozen (y.run moves).store := by
  induction moves with
  | nil => exact fun _ hclosed _ => .refl hclosed
  | cons m rest ih =>
    intro y hy hclosed hm
    have hstep : y.store.Frozen (y.step m).store := frozen_step hy.sound.tidy hclosed (hm m List.mem_cons_self)
    exact hstep.trans (ih (living_step hy m) hstep.not_isOpen fun m' hm' => hm m' (List.mem_cons_of_mem m hm'))

/-- A store keeps its journal, and a journal that takes nothing in does not begin to. -/
theorem alwaysKept_journal (stopped : Prop) :
    AlwaysKept fun _ _ s => s.Tidy ∧ ∃ j, s.journal = some j ∧ (stopped → j.accepting = false) where
  alike := by
    rintro _ _ s _ ⟨monitor, rfl⟩ ⟨hs, hj⟩
    exact ⟨hs.of_slots rfl, hj⟩
  streams := fun _ h => h
  decide := by
    rintro streams _ s now key decide ⟨hs, j, hj, hstopped⟩
    have hend := Store.ending streams now key decide hs
    obtain ⟨j', hj', hsame⟩ := hend.fed.exists_journal hj
    exact ⟨hend.tidy hs, j', hj', fun h => hsame.trans (hstopped h)⟩
  evict := by
    rintro _ _ s now key ⟨hs, j, hj, hstopped⟩
    have hev := Store.eviction hs now key
    obtain ⟨j', hj', hsame⟩ := hev.fed.exists_journal hj
    exact ⟨hev.tidy hs, j', hj', fun h => hsame.trans (hstopped h)⟩
  work := by
    rintro _ _ s j p step hj hstage ⟨hs, j', hj', hstopped⟩
    obtain rfl := Option.some.inj (hj.symm.trans hj')
    exact ⟨hs.of_slots rfl, p.journal, rfl, fun h => hstage.intake.1.trans (hstopped h)⟩
  collect := by
    rintro _ _ s j b hj - ⟨hs, j', hj', hstopped⟩
    obtain rfl := Option.some.inj (hj.symm.trans hj')
    exact ⟨hs.of_slots rfl, _, rfl, hstopped⟩
  close := fun _ ⟨hs, _⟩ => ⟨hs.of_slots rfl, _, rfl, fun _ => rfl⟩
  cancel := fun _ ⟨hs, _⟩ => ⟨hs.of_slots rfl, _, rfl, fun _ => rfl⟩
  restore := by
    rintro streams _ s now record ⟨hs, hj⟩
    have hres := Store.restoring now record streams s
    exact ⟨hres.tidy hs, hres.journal_eq ▸ hj⟩
  submit := by
    rintro _ _ s s' now change hsubmit ⟨hs, j, hj, hstopped⟩
    have hsub := hsubmit ▸ s.submission now change
    refine ⟨hs.of_slots hsub.slots_eq, ?_⟩
    cases hsub with
    | unkept hnone => exact ⟨j, hj, hstopped⟩
    | taken j' notices hj' hopen =>
      obtain rfl := Option.some.inj (hj.symm.trans hj')
      exact ⟨_, rfl, hstopped⟩
  disturb := fun _ h => h

/-- A journal that was closed or cancelled in a run takes nothing in any more. -/
theorem not_isOpen_of_stopped (config : Config) (origin : Origin) (publisher : Publisher) (backend : Backend)
    {past : List Move} (h : .close ∈ past ∨ .cancel ∈ past) :
    ¬((start config true origin publisher backend).run past).store.IsOpen := by
  have hstart : (start config true origin publisher backend).Has
      fun _ _ s => s.Tidy ∧ ∃ j, s.journal = some j ∧ (False → j.accepting = false) :=
    ⟨.empty rfl, _, rfl, False.elim⟩
  obtain ⟨m, hm, hstop⟩ : ∃ m ∈ past, m = .close ∨ m = .cancel :=
    h.elim (fun h => ⟨_, h, .inl rfl⟩) fun h => ⟨_, h, .inr rfl⟩
  obtain ⟨before, after, rfl⟩ := List.append_of_mem hm
  obtain ⟨hs, j, hj, -⟩ := (alwaysKept_journal False).run before hstart
  -- From the stop on the journal stays shut.
  have hstopped : (((start config true origin publisher backend).run before).step m).Has
      fun _ _ s => s.Tidy ∧ ∃ j, s.journal = some j ∧ (True → j.accepting = false) := by
    rcases hstop with rfl | rfl <;> simp only [step, mapJournal, hj] <;> exact ⟨hs.of_slots rfl, _, rfl, fun _ => rfl⟩
  rw [run_append]
  obtain ⟨-, j', hj', hshut⟩ := (alwaysKept_journal True).run after hstopped
  exact Store.not_isOpen_iff.mpr ⟨j', hj', hshut trivial⟩

/-- A store whose journal was closed or cancelled is frozen. As long as no records are taken in, its live entries, its keys
and their number stay as they are, and nothing is added to what waits to be written. A move fails with the error of the
closed journal just when it would change a live entry if the journal was open: a decision that would revise its entry, the
eviction of an entry that is there. Every other move gives the result that it would give then, a decision that leaves its
entry as it is among them. -/
theorem closed_store_is_frozen (config : Config) (origin : Origin) (publisher : Publisher) (backend : Backend)
    (past : List Move) (hstopped : .close ∈ past ∨ .cancel ∈ past) (later : List Move)
    (hlater : ∀ m ∈ later, ¬m.Restores) :
    let y := (start config true origin publisher backend).run past
    let z := y.run later
    let w := z.reopened
    (∀ key, z.store.live? key = y.store.live? key) ∧ z.store.keys = y.store.keys ∧ z.store.count = y.store.count ∧
    (∃ j j', y.store.journal = some j ∧ z.store.journal = some j' ∧ j'.accepting = false ∧ j'.lastSeq = j.lastSeq ∧
      j'.queue <:+ j.queue) ∧
    (∀ m, m.Candid → (w.Changes m → (z.result? m).bind Result.error? = some closedError) ∧
      (¬w.Changes m → z.result? m = w.result? m ∧
        ∀ reason, (z.result? m).bind Result.error? ≠ some (.persistence reason))) ∧
    (∀ now request key decide, request.decide? = some (key, decide) →
      (w.Changes (.ask now request) ↔ ∃ decision entry mint, decide (z.store.live? key) = .ok decision ∧
        Store.Revision z.streams now key z.store.mint (z.store.live? key) decision entry mint) ∧
      ∀ decision entry, z.store.live? key = some entry → decide (some entry) = .ok decision →
        Store.Stands z.streams entry decision → (z.store.perform ⟨request, z.streams, now⟩).1 =
          .ok (.reconciled ⟨entry, decision.kind, entry.identity, false⟩)) ∧
    (∀ now key, w.Changes (.ask now (.evict key)) ↔ z.store.live? key ≠ none) ∧
    (∀ now, w.Changes (.ask now .evictAll) ↔ z.store.keys ≠ []) := by
  intro y z w
  have hy : y.store.Living y.streams := living_run (living_start config true origin publisher backend) past
  have hclosed : ¬y.store.IsOpen := not_isOpen_of_stopped config origin publisher backend hstopped
  have hfrozen : y.store.Frozen z.store := frozen_run later hy hclosed hlater
  -- The reopened system differs in its journal only, so the two can be compared move by move.
  have hshut : z.Shut w := shut_reopened (living_run hy later) hfrozen.not_isOpen
  refine ⟨?_, ?_, hfrozen.count, hfrozen.journal, ?_, ?_, hshut.changes_evict_iff, hshut.changes_evictAll_iff⟩
  · intro key
    rw [Store.live?, Store.live?, hfrozen.slots]
  · rw [Store.keys, Store.keys, hfrozen.slots]
  · intro m hm
    obtain ⟨hrefused, hsame, hgenuine⟩ := hshut.gates hm
    exact ⟨hrefused, fun hnot => ⟨hsame hnot, hsame hnot ▸ hgenuine⟩⟩
  · intro now request key decide hr
    refine ⟨hshut.changes_decide_iff now hr, ?_⟩
    exact fun decision entry hlive hd hstands => hshut.perform_of_stands now hr hlive hd hstands

/-- After the journal was closed an entry can neither be evicted nor get another alternative, and to keep it goes well. -/
theorem frozen_after_close : ∃ y z : System,
    y = (start {} true {} .nobody {}).run [.openStream (.ofContent "text/plain" [120]),
      .openStream (.ofContent "text/html" [121]), .ask ⟨0⟩ (.reconcile (.ofUri "/") (.replace 0 none)), .close] ∧
    z = y.run [.work .take, .ask ⟨1⟩ (.evict (.ofUri "/")), .cancel] ∧
    z.store.keys = [.ofUri "/"] ∧ z.store.count = 1 ∧
    (z.result? (.ask ⟨2⟩ (.evict (.ofUri "/")))).bind Result.error? = some closedError ∧
    (z.result? (.ask ⟨2⟩ (.reconcile (.ofUri "/") (.attach ⟨"text/html", 1⟩)))).bind Result.error? = some closedError ∧
    (z.store.perform ⟨.reconcile (.ofUri "/") .keep, z.streams, ⟨2⟩⟩).1 = .ok (.reconciled
      ⟨.fresh (.ofUri "/") ⟨1⟩ 0 none (Moment.date ⟨0⟩), .keep, ⟨1⟩, false⟩) := by
  obtain ⟨y, hy⟩ : ∃ y, y = (start {} true {} .nobody {}).run [.openStream (.ofContent "text/plain" [120]),
    .openStream (.ofContent "text/html" [121]), .ask ⟨0⟩ (.reconcile (.ofUri "/") (.replace 0 none)), .close] := ⟨_, rfl⟩
  obtain ⟨z, hz⟩ : ∃ z, z = y.run [.work .take, .ask ⟨1⟩ (.evict (.ofUri "/")), .cancel] := ⟨_, rfl⟩
  have hfrozen := closed_store_is_frozen {} {} .nobody {} [.openStream (.ofContent "text/plain" [120]),
    .openStream (.ofContent "text/html" [121]), .ask ⟨0⟩ (.reconcile (.ofUri "/") (.replace 0 none)), .close] (by simp)
    [.work .take, .ask ⟨1⟩ (.evict (.ofUri "/")), .cancel] (by simp [Move.Restores])
  simp only [← hy, ← hz] at hfrozen
  obtain ⟨hlive, hkeys, hcount, -, hgates, hdecide, hevict, -⟩ := hfrozen
  -- What the system holds before it is closed shows in it for ever.
  have hentry : z.store.live? (.ofUri "/") = some (.fresh (.ofUri "/") ⟨1⟩ 0 none (Moment.date ⟨0⟩)) := by
    rw [hlive, hy, Key.ofUri_root]
    rfl
  have hsealed : z.streams.Sealed 1 := ⟨[121], by rw [hz, hy, Key.ofUri_root]; rfl⟩
  refine ⟨y, z, hy, hz, ?_, ?_, ?_, ?_, ?_⟩
  · rw [hkeys, hy, Key.ofUri_root]
    rfl
  · rw [hcount, hy, Key.ofUri_root]
    rfl
  · exact (hgates (.ask ⟨2⟩ (.evict (.ofUri "/"))) trivial).1 ((hevict _ _).mpr (by simp [hentry]))
  · refine (hgates (.ask ⟨2⟩ (.reconcile (.ofUri "/") (.attach ⟨"text/html", 1⟩))) trivial).1 ?_
    refine (hdecide ⟨2⟩ _ (.ofUri "/") (fun _ => .ok (.attach ⟨"text/html", 1⟩)) rfl).1.mpr ?_
    rw [hentry]
    exact ⟨_, _, _, rfl, .attach _ ⟨"text/html", 1⟩ hsealed (by simp [Entry.fresh])⟩
  · exact (hdecide ⟨2⟩ _ (.ofUri "/") (fun _ => .ok .keep) rfl).2 .keep _ hentry rfl .keep

end System
end ResponseCache
