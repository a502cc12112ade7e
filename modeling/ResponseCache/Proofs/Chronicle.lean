import ResponseCache.Proofs.Living
import ResponseCache.Proofs.Store.History
/-!
What a system did. A move comes to at most one call of the store, and the deeds of that call are the deeds of the move. As
long as no records are taken in, the live entries are what the history of deeds says.
-/
namespace ResponseCache.System

/-- A decision on what the origin said. -/
def revalidation (key : Key) (intent : Intent) (outcome : Outcome) : Request :=
  .reconcileWith key fun current => Decision.decide key current outcome intent

/-- The call that a move comes to, with the store as it is when the call is made. -/
def call? (y : System) : Move → Option (Store × Call)
  | .ask now request => some (y.store, ⟨request, y.streams, now⟩)
  | .fetch now key intent =>
    match (y.service.inquire key intent).1.receive y.streams with
    | (.ok outcome, streams) =>
      some ((y.service.inquire key intent).2.store, ⟨revalidation key intent outcome, streams, now⟩)
    | (.error _, _) => none
  | .conclude now key intent outcome => some (y.store, ⟨revalidation key intent outcome, y.streams, now⟩)
  | .finish now o =>
    match y.streams.finish o.stream with
    | .ok streams => some (y.store, ⟨.attach o.key o.identity ⟨o.label, o.stream⟩, streams, now⟩)
    | .error _ => none
  | .clear now key => some (y.store, ⟨.clear key, y.streams, now⟩)
  | .evict now key => some (y.store, ⟨.evict key, y.streams, now⟩)
  | _ => none

def deeds (y : System) (m : Move) : List Deed :=
  match y.call? m with
  | some (s, c) => s.deeds c
  | none => []

def history (y : System) : List Move → List Deed
  | [] => []
  | m :: rest => y.deeds m ++ (y.step m).history rest

/-- The move takes records in. -/
def Move.Restores : Move → Prop
  | .restore _ _ => True
  | _ => False

theorem step_fetch (y : System) (now : Moment) (key : Key) (intent : Intent) (outcome : Outcome) (streams : Streams)
    (h : (y.service.inquire key intent).1.receive y.streams = (.ok outcome, streams)) :
    y.step (.fetch now key intent) =
      { y with
        streams
        service := ((y.service.inquire key intent).2.conclude streams now key intent outcome).2 } := by
  simp only [step, Service.fetch, h]

/-- The moves that come to a call, each with the store and the call. -/
inductive Calls (y : System) : Move → Store → Call → Prop
  | ask (now : Moment) (request : Request) : Calls y (.ask now request) y.store ⟨request, y.streams, now⟩
  | fetch (now : Moment) (key : Key) (intent : Intent) (outcome : Outcome) (streams : Streams)
      (hreceive : (y.service.inquire key intent).1.receive y.streams = (.ok outcome, streams)) :
      Calls y (.fetch now key intent) (y.service.inquire key intent).2.store
        ⟨revalidation key intent outcome, streams, now⟩
  | conclude (now : Moment) (key : Key) (intent : Intent) (outcome : Outcome) :
      Calls y (.conclude now key intent outcome) y.store ⟨revalidation key intent outcome, y.streams, now⟩
  | finish (now : Moment) (o : Output) (streams : Streams) (hfinish : y.streams.finish o.stream = .ok streams) :
      Calls y (.finish now o) y.store ⟨.attach o.key o.identity ⟨o.label, o.stream⟩, streams, now⟩
  | clear (now : Moment) (key : Key) : Calls y (.clear now key) y.store ⟨.clear key, y.streams, now⟩
  | evict (now : Moment) (key : Key) : Calls y (.evict now key) y.store ⟨.evict key, y.streams, now⟩

theorem calls_of_call? {y : System} {m : Move} {s : Store} {c : Call} (h : y.call? m = some (s, c)) : y.Calls m s c := by
  cases m with
  | fetch now key intent =>
    simp only [call?] at h
    split at h
    · rename_i outcome streams hreceive
      cases h
      exact .fetch now key intent outcome streams hreceive
    · exact absurd h (by simp)
  | finish now o =>
    simp only [call?] at h
    split at h
    · rename_i streams hfinish
      cases h
      exact .finish now o streams hfinish
    · exact absurd h (by simp)
  | ask | conclude | clear | evict =>
    cases h
    constructor
  | inquire | receive | script | openStream | writeStream | sealStream | releaseStream | work | flush | close | cancel |
    restore | submit | disturb => exact absurd h (by simp [call?])

/-- A fetch comes to no call when nothing was received. -/
theorem receive_of_call?_eq_none {y : System} {now : Moment} {key : Key} {intent : Intent}
    (h : y.call? (.fetch now key intent) = none) :
    ∃ e streams, (y.service.inquire key intent).1.receive y.streams = (.error e, streams) := by
  simp only [call?] at h
  split at h
  · exact absurd h (by simp)
  · rename_i e streams hreceive
    exact ⟨e, streams, hreceive⟩

theorem finish_of_call?_eq_none {y : System} {now : Moment} {o : Output} (h : y.call? (.finish now o) = none) :
    ∃ e, y.streams.finish o.stream = .error e := by
  simp only [call?] at h
  split at h
  · exact absurd h (by simp)
  · rename_i e hfinish
    exact ⟨e, hfinish⟩

/-- The call of a move is made on the store as it was, but for its monitor, and leaves the store as it will be. -/
theorem alike_of_call? {y : System} {m : Move} {s : Store} {c : Call} (h : y.call? m = some (s, c)) :
    y.store.Alike s ∧ (s.perform c).2.Alike (y.step m).store := by
  cases calls_of_call? h with
  | ask now request => exact ⟨.refl _, .refl _⟩
  | fetch now key intent outcome streams hreceive =>
    rw [step_fetch y now key intent outcome streams hreceive]
    exact ⟨y.service.alike_inquire key intent, Service.alike_conclude _ streams now key intent outcome⟩
  | conclude now key intent outcome => exact ⟨.refl _, y.service.alike_conclude y.streams now key intent outcome⟩
  | finish now o streams hfinish => exact ⟨.refl _, (y.service.alike_finish_of_ok y.streams now hfinish).2⟩
  | clear now key => exact ⟨.refl _, y.service.alike_clear y.streams now key⟩
  | evict now key => exact ⟨.refl _, y.service.alike_evict now key⟩

/-- A move without a call leaves the entries and the mint alone, unless it takes records in. -/
theorem same_of_call?_eq_none {y : System} {m : Move} (h : y.call? m = none) (hm : ¬m.Restores) :
    (y.step m).store.slots = y.store.slots ∧ (y.step m).store.mint = y.store.mint := by
  have halike {s : Store} (hs : y.store.Alike s) : s.slots = y.store.slots ∧ s.mint = y.store.mint := by
    obtain ⟨monitor, rfl⟩ := hs
    exact ⟨rfl, rfl⟩
  -- A fetch that receives nothing and an output that cannot be ended make no call either.
  cases m with
  | ask | conclude | clear | evict => exact absurd h (by simp [call?])
  | fetch now key intent =>
    obtain ⟨e, streams, hreceive⟩ := receive_of_call?_eq_none h
    have hstep : (y.step (.fetch now key intent)).store = (y.service.inquire key intent).2.store := by
      simp only [step, Service.fetch, hreceive]
      rfl
    rw [hstep]
    exact halike (y.service.alike_inquire key intent)
  | finish now o =>
    obtain ⟨e, hfinish⟩ := finish_of_call?_eq_none h
    have hstep : (y.step (.finish now o)).store = y.store := by
      simp only [step, y.service.finish_of_error y.streams now hfinish]
    exact halike (hstep ▸ .refl y.store)
  | inquire key intent => exact halike (y.service.alike_inquire key intent)
  | work w =>
    simp only [step, Service.pipeline?]
    cases y.service.store.journal with
    | none => exact ⟨rfl, rfl⟩
    | some j => exact ⟨rfl, rfl⟩
  | flush b elapsed =>
    simp only [step]
    split
    · exact ⟨rfl, rfl⟩
    · split <;> exact ⟨rfl, rfl⟩
  | close | cancel =>
    simp only [step, mapJournal]
    cases y.store.journal with
    | none => exact ⟨rfl, rfl⟩
    | some j => exact ⟨rfl, rfl⟩
  | submit now change =>
    have hsub := y.store.submission now change
    simp only [step]
    cases hsubmit : y.store.submit now change with
    | error e => exact ⟨rfl, rfl⟩
    | ok s => exact ⟨(hsubmit ▸ hsub).slots_eq, (hsubmit ▸ hsub).mint_eq⟩
  | restore now records => exact absurd trivial hm
  | receive | script | openStream | writeStream | sealStream | releaseStream | disturb => exact ⟨rfl, rfl⟩

theorem generation_step {y : System} (hy : y.store.Tidy) {m : Move} (hm : ¬m.Restores) (key : Key) :
    ((y.step m).store.live? key).map Entry.generation =
      (y.deeds m).foldl (Deed.remember key) ((y.store.live? key).map Entry.generation) := by
  unfold deeds
  cases hcall : y.call? m with
  | none =>
    have hslots := (same_of_call?_eq_none hcall hm).1
    simp only [List.foldl_nil, Store.live?, hslots]
  | some call =>
    obtain ⟨s, c⟩ := call
    obtain ⟨⟨monitor, rfl⟩, monitor', hafter⟩ := alike_of_call? hcall
    have hs : Store.Tidy { y.store with monitor } := hy.of_slots rfl
    -- Neither the monitor of before nor the one of after shows in the live entries.
    rw [hafter]
    exact Store.generation_perform hs c key

theorem generation_run (key : Key) (moves : List Move) : ∀ {y : System}, y.store.Living y.streams →
    (∀ m ∈ moves, ¬m.Restores) →
    ((y.run moves).store.live? key).map Entry.generation =
      (y.history moves).foldl (Deed.remember key) ((y.store.live? key).map Entry.generation) := by
  induction moves with
  | nil => exact fun _ _ => rfl
  | cons m rest ih =>
    intro y hy hm
    have hstep := generation_step hy.sound.tidy (hm m List.mem_cons_self) key
    rw [history, List.foldl_append, ← hstep]
    exact ih (living_step hy m) fun m' hm' => hm m' (List.mem_cons_of_mem m hm')

end ResponseCache.System
