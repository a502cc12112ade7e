import ResponseCache.Proofs.Service
/-!
Systems: a service with the streams and the backend that it lives on. Everything that can happen to one is a move. A move
comes to a few elementary changes of the streams, the backend and the store; what these keep, runs keep.
-/
namespace ResponseCache

structure System where
  streams : Streams := {}
  backend : Backend := {}
  service : Service := {}

namespace System

/-- What may happen next. The halves of a fetch are moves too, so that other moves may come between them. -/
inductive Move
  | ask (now : Moment) (request : Request)
  | fetch (now : Moment) (key : Key) (intent : Intent)
  | inquire (key : Key) (intent : Intent)
  | receive (answer : Answer)
  | conclude (now : Moment) (key : Key) (intent : Intent) (outcome : Outcome)
  | finish (now : Moment) (o : Output)
  | clear (now : Moment) (key : Key)
  | evict (now : Moment) (key : Key)
  /-- The origin gets one more answer. -/
  | script (answer : Answer)
  | openStream (stream : Stream)
  | writeStream (id : StreamId) (bytes : Bytes)
  | sealStream (id : StreamId)
  | releaseStream (id : StreamId)
  /-- One step of the writer. -/
  | work (step : WriterStep)
  /-- A flush that waits for this barrier looks whether it is reached. -/
  | flush (b : Barrier) (elapsed : Span)
  | close
  | cancel
  | restore (now : Moment) (records : List Record)
  /-- A change is submitted past the store. -/
  | submit (now : Moment) (change : Change)
  /-- Whatever happens to the backend from outside. -/
  | disturb (backend : Backend)

/-- Nobody but the service writes to its journal and to the backend, and no changes are dropped. -/
def Move.Ordinary : Move → Prop
  | .cancel => False
  | .restore _ _ => False
  | .submit _ _ => False
  | .disturb _ => False
  | _ => True

def store (y : System) : Store := y.service.store

def setStore (y : System) (store : Store) : System := { y with service := { y.service with store } }

/-- A new service over this backend. -/
def start (config : Config) (persistent : Bool) (origin : Origin) (publisher : Publisher) (backend : Backend) : System :=
  { backend, service := .start config persistent origin publisher }

/-- The journal after a change of it, if there is one. -/
def mapJournal (y : System) (f : Journal → Journal) : System :=
  match y.store.journal with
  | none => y
  | some j => y.setStore { y.store with journal := some (f j) }

def step (y : System) : Move → System
  | .ask now request => y.setStore (y.store.perform ⟨request, y.streams, now⟩).2
  | .fetch now key intent =>
    let (_, streams, service) := y.service.fetch y.streams now key intent
    { y with streams, service }
  | .inquire key intent => { y with service := (y.service.inquire key intent).2 }
  | .receive answer => { y with streams := (answer.receive y.streams).2 }
  | .conclude now key intent outcome => { y with service := (y.service.conclude y.streams now key intent outcome).2 }
  | .finish now o =>
    let (_, streams, service) := y.service.finish y.streams now o
    { y with streams, service }
  | .clear now key => { y with service := (y.service.clear y.streams now key).2 }
  | .evict now key => { y with service := (y.service.evict now key).2 }
  | .script answer => { y with service := { y.service with origin := y.service.origin.push answer } }
  | .openStream stream => { y with streams := (y.streams.add stream).2 }
  | .writeStream id bytes => { y with streams := ((y.streams.write id bytes).toOption).getD y.streams }
  | .sealStream id => { y with streams := ((y.streams.finish id).toOption).getD y.streams }
  | .releaseStream id => { y with streams := y.streams.release id }
  | .work step =>
    match y.service.pipeline? y.backend with
    | none => y
    | some p => { y with backend := (p.step step).backend, service := y.service.withPipeline (p.step step) }
  | .flush b elapsed =>
    match y.store.journal with
    | none => { y with service := y.service.count (·.countFlush elapsed) }
    | some j =>
      if j.reached b then
        let y := y.setStore { y.store with journal := some (j.collect b).2 }
        { y with service := y.service.count (·.countFlush elapsed) }
      else y
  | .close => y.mapJournal (·.close)
  | .cancel => y.mapJournal (·.cancel)
  | .restore now records =>
    let (_, streams, store) := Store.restore now records y.streams y.store
    { y with streams }.setStore store
  | .submit now change => y.setStore (((y.store.submit now change).toOption).getD y.store)
  | .disturb backend => { y with backend }

def run (y : System) (moves : List Move) : System := moves.foldl step y

theorem run_append (y : System) (before after : List Move) : y.run (before ++ after) = (y.run before).run after :=
  List.foldl_append

/-- A property is kept by all that ordinary moves come to. -/
structure Kept (P : Streams → Backend → Store → Prop) : Prop where
  alike : ∀ {streams backend s s'}, s.Alike s' → P streams backend s → P streams backend s'
  streams : ∀ {streams streams' backend s}, streams.Keeps streams' → P streams backend s → P streams' backend s
  decide : ∀ {streams backend s} now key decide, P streams backend s →
    P streams backend (s.reconcileWith streams now key decide).2
  evict : ∀ {streams backend s} now key, P streams backend s → P streams backend (s.evict now key).2
  work : ∀ {streams backend s j p step}, s.journal = some j → Pipeline.Stage ⟨j, backend, s.monitor⟩ step p →
    P streams backend s → P streams p.backend { s with journal := some p.journal, monitor := p.monitor }
  collect : ∀ {streams backend s j} b, s.journal = some j → j.reached b = true → P streams backend s →
    P streams backend { s with journal := some (j.collect b).2 }
  close : ∀ {streams backend s j}, s.journal = some j → P streams backend s →
    P streams backend { s with journal := some j.close }

/-- A property is kept by all that any moves come to. -/
structure AlwaysKept (P : Streams → Backend → Store → Prop) : Prop extends Kept P where
  cancel : ∀ {streams backend s j}, s.journal = some j → P streams backend s →
    P streams backend { s with journal := some j.cancel }
  restore : ∀ {streams backend s} now record, P streams backend s →
    P (s.restoreOne now record streams).2.1 backend (s.restoreOne now record streams).2.2
  submit : ∀ {streams backend s s'} now change, s.submit now change = .ok s' → P streams backend s →
    P streams backend s'
  disturb : ∀ {streams backend s} backend', P streams backend s → P streams backend' s

/-- The property holds of a system. -/
def Has (P : Streams → Backend → Store → Prop) (y : System) : Prop := P y.streams y.backend y.store

section
variable {P : Streams → Backend → Store → Prop} {y : System}

theorem Kept.ask (h : Kept P) (now : Moment) (request : Request) (hy : y.Has P) : (y.step (.ask now request)).Has P := by
  refine Store.perform_keeps (P := P y.streams y.backend) ⟨request, y.streams, now⟩ ?_ ?_ ?_ y.store hy
  · exact fun s monitor hs => h.alike ⟨monitor, rfl⟩ hs
  · exact fun s key decide hs => h.decide now key decide hs
  · exact fun s key hs => h.evict now key hs

theorem Kept.inquire (h : Kept P) (key : Key) (intent : Intent) (hy : y.Has P) : (y.step (.inquire key intent)).Has P :=
  h.alike (y.service.alike_inquire key intent) hy

theorem Kept.conclude (h : Kept P) (now : Moment) (key : Key) (intent : Intent) (outcome : Outcome) (hy : y.Has P) :
    (y.step (.conclude now key intent outcome)).Has P :=
  h.alike (y.service.alike_conclude y.streams now key intent outcome) (h.decide now key _ hy)

theorem Kept.receive (h : Kept P) (answer : Answer) (hy : y.Has P) : (y.step (.receive answer)).Has P :=
  h.streams (y.streams.keeps_receive answer) hy

theorem Kept.fetch (h : Kept P) (now : Moment) (key : Key) (intent : Intent) (hy : y.Has P) :
    (y.step (.fetch now key intent)).Has P := by
  -- A fetch inquires, receives and, if there was an outcome, concludes; each of these keeps the property.
  have hinquire := h.inquire key intent hy
  have hreceive := h.receive (y.service.inquire key intent).1 hinquire
  simp only [step, Service.fetch] at hinquire hreceive ⊢
  cases hanswer : ((y.service.inquire key intent).1.receive y.streams).1 with
  | error e =>
    simp only
    exact hreceive
  | ok outcome =>
    simp only
    exact h.conclude now key intent outcome hreceive

theorem Kept.finish (h : Kept P) (now : Moment) (o : Output) (hy : y.Has P) : (y.step (.finish now o)).Has P := by
  simp only [step]
  rcases y.service.alike_finish y.streams now o with hsame | ⟨streams, hfinish, hstreams, halike⟩
  · simp only [hsame]
    exact hy
  · have hkeeps := Streams.keeps_finish hfinish
    have hattach : P streams y.backend (y.store.attach streams now o.key o.identity ⟨o.label, o.stream⟩).2 :=
      h.decide now o.key _ (h.streams hkeeps hy)
    rw [← hstreams] at halike hattach
    exact h.alike halike hattach

theorem Kept.workStep (h : Kept P) (w : WriterStep) (hy : y.Has P) : (y.step (.work w)).Has P := by
  simp only [step, Service.pipeline?]
  cases hj : y.service.store.journal with
  | none => exact hy
  | some j => exact h.work hj (Pipeline.stage ⟨j, y.backend, y.service.store.monitor⟩ w) hy

theorem Kept.flush (h : Kept P) (b : Barrier) (elapsed : Span) (hy : y.Has P) : (y.step (.flush b elapsed)).Has P := by
  simp only [step]
  split
  · exact h.alike (y.service.alike_count _) hy
  · rename_i j hj
    split
    · rename_i hreached
      exact h.alike (Service.alike_count _ _) (h.collect b hj hreached hy)
    · exact hy

theorem has_mapJournal {f : Journal → Journal}
    (hf : ∀ j, y.store.journal = some j → P y.streams y.backend { y.store with journal := some (f j) })
    (hy : y.Has P) : (y.mapJournal f).Has P := by
  unfold mapJournal
  cases hj : y.store.journal with
  | none => exact hy
  | some j => exact hf j hj

/-- What is kept by an action on a stream that succeeds, or by no action at all. -/
theorem Kept.action (h : Kept P) {action : Except Error Streams}
    (ha : ∀ streams, action = .ok streams → y.streams.Keeps streams) (hy : y.Has P) :
    ({ y with streams := action.toOption.getD y.streams } : System).Has P := by
  cases action with
  | error e => exact hy
  | ok streams => exact h.streams (ha streams rfl) hy

theorem Kept.step (h : Kept P) {m : Move} (hm : m.Ordinary) (hy : y.Has P) : (y.step m).Has P := by
  cases m with
  | ask now request => exact h.ask now request hy
  | fetch now key intent => exact h.fetch now key intent hy
  | inquire key intent => exact h.inquire key intent hy
  | receive answer => exact h.receive answer hy
  | conclude now key intent outcome => exact h.conclude now key intent outcome hy
  | finish now o => exact h.finish now o hy
  | clear now key => exact h.alike (y.service.alike_clear y.streams now key) (h.decide now key _ hy)
  | evict now key => exact h.alike (y.service.alike_evict now key) (h.evict now key hy)
  | script answer => exact hy
  | openStream stream => exact h.streams (y.streams.keeps_add stream) hy
  | writeStream id bytes => exact h.action (fun _ => Streams.keeps_write) hy
  | sealStream id => exact h.action (fun _ => Streams.keeps_finish) hy
  | releaseStream id => exact h.streams (y.streams.keeps_release id) hy
  | work w => exact h.workStep w hy
  | flush b elapsed => exact h.flush b elapsed hy
  | close => exact has_mapJournal (fun j hj => h.close hj hy) hy
  | cancel | restore now records | submit now change | disturb backend => exact absurd hm (by simp [Move.Ordinary])

theorem Kept.run (h : Kept P) (moves : List Move) : ∀ {y : System}, (∀ m ∈ moves, m.Ordinary) → y.Has P →
    (y.run moves).Has P := by
  induction moves with
  | nil => exact fun _ hy => hy
  | cons m rest ih =>
    intro y hm hy
    exact ih (fun m' hm' => hm m' (List.mem_cons_of_mem m hm')) (h.step (hm m List.mem_cons_self) hy)

/-- What every record that is taken in keeps, several keep. -/
theorem AlwaysKept.restoreAll (h : AlwaysKept P) (now : Moment) (records : List Record) :
    ∀ (streams : Streams) (backend : Backend) (s : Store), P streams backend s →
    P (s.restore now records streams).2.1 backend (s.restore now records streams).2.2 := by
  induction records with
  | nil => exact fun streams backend s hs => hs
  | cons record rest ih =>
    intro streams backend s hs
    exact ih _ backend _ (h.restore now record hs)

theorem AlwaysKept.step (h : AlwaysKept P) (m : Move) (hy : y.Has P) : (y.step m).Has P := by
  cases m with
  | cancel => exact has_mapJournal (fun j hj => h.cancel hj hy) hy
  | restore now records => exact h.restoreAll now records y.streams y.backend y.store hy
  | submit now change =>
    simp only [System.step]
    cases hsubmit : y.store.submit now change with
    | error e => exact hy
    | ok s => exact h.submit now change hsubmit hy
  | disturb backend => exact h.disturb backend hy
  | ask | fetch | inquire | receive | conclude | finish | clear | evict | script | openStream | writeStream |
    sealStream | releaseStream | work | flush | close => exact h.toKept.step trivial hy

theorem AlwaysKept.run (h : AlwaysKept P) (moves : List Move) : ∀ {y : System}, y.Has P → (y.run moves).Has P := by
  induction moves with
  | nil => exact fun hy => hy
  | cons m rest ih => exact fun hy => ih (h.step m hy)

end

end System
end ResponseCache
