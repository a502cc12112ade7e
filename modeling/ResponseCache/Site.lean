import ResponseCache.Service
/-!
A site: a service with the clock, the streams and the backend that it lives on. Journals are written only while one
waits, and waiting makes the clock jump from one thing that falls due to the next. When a service is started in place of
another, the writer of the old one goes on beside it, over the same backend. Writers get their turns in the order in
which they had something to do.
-/
namespace ResponseCache

structure Site where
  /-- Nanoseconds since the start of 1970. -/
  now : Nat
  streams : Streams := {}
  backend : Backend := {}
  service : Service := {}
  /-- The services before this one, the oldest first. -/
  retired : List Service := []
  /-- The numbers of the services whose writers have something to do, in the order of their turns. -/
  line : List Nat := [0]
  /-- What all services have noted, in order. -/
  log : List Notice := []
  deriving Repr

namespace Site

def moment (s : Site) : Moment := ⟨s.now⟩

/-- The number of the present service, counted from the first one. -/
def current (s : Site) : Nat := s.retired.length

def serviceAt (s : Site) (n : Nat) : Service := (s.retired[n]?).getD s.service

/-- Has the writer of a service wait for its turn, behind those that wait already. -/
def enqueue (s : Site) (n : Nat) : Site := if s.line.contains n then s else { s with line := s.line ++ [n] }

/-- Puts a service in its place. What is new among its notices goes to the log, and its writer waits for its turn if there
is something to write. -/
def setServiceAt (s : Site) (n : Nat) (service : Service) : Site :=
  let fresh := service.store.monitor.notices.drop (s.serviceAt n).store.monitor.notices.length
  let s := { s with log := s.log ++ fresh }
  let s := if service.store.journal.all (·.isIdle) then s else s.enqueue n
  if n < s.retired.length then { s with retired := s.retired.set n service } else { s with service }

def setService (s : Site) (service : Service) : Site := s.setServiceAt s.current service

/-- Starts another service over the same streams and backend. Its writer gets a first turn in any case. -/
def restart (s : Site) (service : Service) : Site :=
  { s with service, retired := s.retired ++ [s.service], line := s.line ++ [s.current + 1] }

/-- The turn of one writer, unless the backend still works for it. It leaves the line, and comes in at its end if it has
something to do afterwards. -/
def turn (s : Site) (n : Nat) : Site :=
  match (s.serviceAt n).pipeline? s.backend with
  | none => { s with line := s.line.erase n }
  | some p =>
    if p.journal.due?.any (s.now < ·) then s
    else
      let p := p.turn s.now
      { s with line := s.line.erase n, backend := p.backend }.setServiceAt n ((s.serviceAt n).withPipeline p)

/-- Gives every writer in the line its turn. -/
def round (s : Site) : Site := s.line.foldl turn s

/-- The journals of the writers in the line. -/
def journals (s : Site) : List Journal := s.line.filterMap fun n => (s.serviceAt n).store.journal

/-- When the backend is done with a change next. -/
def nextDue (s : Site) : Option Nat := (s.journals.filterMap (·.due?)).min?

/-- The number of changes that writers still have before them. -/
def outstanding (s : Site) : Nat := s.journals.foldl (fun n j => n + j.queue.length + 1) 0

/-- Jumps from one due time to the next, short of the limit, and no further than until `stop` holds. -/
def run (stop : Site → Bool) (limit : Option Nat) : Nat → Site → Site
  | 0, s => s
  | fuel + 1, s =>
    if stop s then s
    else match s.nextDue with
      | none => s
      | some due => if limit.all (due < ·) then run stop limit fuel { s with now := max s.now due }.round else s

/-- Gives the writers their turns, and lets everything happen before the limit that has to before `stop` holds. -/
def wait (s : Site) (stop : Site → Bool) (limit : Option Nat) : Site := run stop limit s.outstanding s.round

/-- Lets time pass. What falls due at the very end happens in the next wait. -/
def sleep (s : Site) (span : Span) : Site :=
  { s.wait (fun _ => false) (some (s.now + span.nanos)) with now := s.now + span.nanos }

/-- Lets the writers do what they can without time passing. -/
def pause (s : Site) : Site := s.sleep ⟨0⟩

def setJournal (s : Site) (j : Journal) : Site :=
  s.setService { s.service with store := { s.service.store with journal := some j } }

/-- A barrier of the service with that number is reached: it collects its failures, and the flush is counted. -/
def complete (s : Site) (n : Nat) (j : Journal) (b : Barrier) : Except Error Unit × Site :=
  let (answer, j) := j.collect b
  let service := s.serviceAt n
  let service := { service with store := { service.store with journal := some j } }
  (answer, s.setServiceAt n (service.count (·.countFlush ⟨s.now - b.since⟩)))

/-- Whether a barrier of the service with that number is reached, or has been waited for long enough. A barrier that is
reached is never too late. -/
def poll (s : Site) (n : Nat) (b : Barrier) : Option (Except Error Unit × Site) :=
  (s.serviceAt n).store.journal.bind fun j =>
    if j.reached b then some (s.complete n j b)
    else match j.deadline? b, j.patience with
      | some deadline, some patience => if deadline ≤ s.now then some (.error (.flushTimeout patience), s) else none
      | _, _ => none

def isReached (b : Barrier) (s : Site) : Bool := s.service.store.journal.all (·.reached b)

/-- Waits until everything submitted so far is committed, or for as long as the settings allow. Without a journal there
is nothing to wait for. -/
def flush (s : Site) : Except Error Unit × Site :=
  match s.service.store.journal with
  | none => (.ok (), s.setService (s.service.count (·.countFlush ⟨0⟩)))
  | some j =>
    let b := j.barrier s.now
    match s.poll s.current b with
    | some answer => answer
    | none =>
      let s := s.wait (isReached b) (j.deadline? b)
      match s.poll s.current b with
      | some answer => answer
      | none =>
        let s := { s with now := (j.deadline? b).getD s.now }
        (s.poll s.current b).getD (.ok (), s)

def isIdle (s : Site) : Bool := s.service.store.journal.all (·.isIdle)

/-- Stops the writer: `close` says what becomes of the changes that wait. One waits for it to stop, once. -/
def stop (s : Site) (close : Journal → Journal) : Site :=
  match s.service.store.journal with
  | none => s
  | some j => if j.accepting then (s.setJournal (close j)).wait isIdle none else s.setJournal (close j)

/-- Takes no more changes and waits until the writer is done with those that it has. -/
def shutdown (s : Site) : Site := s.stop (·.close)

/-- Takes no more changes, drops those that wait, and waits for the one that the backend works on. -/
def abort (s : Site) : Site := s.stop (·.cancel)

/-- Submits a change to the journal, and answers with its number. -/
def submit (s : Site) (change : Change) : Except Error Nat × Site :=
  match s.service.store.journal with
  | none => (.error (.persistence "flush coordinator is shut down"), s)
  | some j =>
    match s.service.store.submit s.moment change with
    | .error e => (.error e, s)
    | .ok store => (.ok (j.lastSeq + 1), s.setService { s.service with store })

/-- Has the backend repeat a change at once, past the journal; it takes as long as any other. -/
def askBackend (s : Site) (change : Change) : Except Error Bool × Site :=
  let s := if s.backend.latency.nanos = 0 then s else s.sleep s.backend.latency
  let (answer, backend) := s.backend.apply change
  (answer, { s with backend })

def fetch (s : Site) (key : Key) (intent : Intent) : Except Error Response × Site :=
  let (answer, streams, service) := s.service.fetch s.streams s.moment key intent
  (answer, { s with streams }.setService service)

def lookup (s : Site) (key : Key) : Option Entry × Site :=
  let (entry, store) := s.service.store.lookup key
  (entry, s.setService { s.service with store })

def clear (s : Site) (key : Key) : Except Error Entry × Site :=
  let (answer, service) := s.service.clear s.streams s.moment key
  (answer, s.setService service)

def evict (s : Site) (key : Key) : Except Error (Option Identity) × Site :=
  let (answer, service) := s.service.evict s.moment key
  (answer, s.setService service)

/-- Opens an output of the service with that number. -/
def openOutput (s : Site) (n : Nat) (entry : Entry) (label : String) : Output × Site :=
  let (output, streams) := (s.serviceAt n).openOutput s.streams entry label
  (output, { s with streams })

def writeOutput (s : Site) (o : Output) (bytes : Bytes) : Except Error Site :=
  (s.streams.write o.stream bytes).map fun streams => { s with streams }

/-- Finishes an output of the service with that number. -/
def finish (s : Site) (n : Nat) (o : Output) : Except Error Entry × Site :=
  let (answer, streams, service) := (s.serviceAt n).finish s.streams s.moment o
  (answer, { s with streams }.setServiceAt n service)

/-- Takes records into the store of the service, and answers with the number of those that became live. -/
def restore (s : Site) (records : List Record) : Nat × Site :=
  let (n, streams, store) := Store.restore s.moment records s.streams s.service.store
  (n, { s with streams }.setService { s.service with store })

/-- One decision or removal of the store of the service. -/
def onStore {α : Type} (s : Site) (f : Store → Except Error α × Store) : Except Error α × Site :=
  let (answer, store) := f s.service.store
  (answer, s.setService { s.service with store })

end Site
end ResponseCache
