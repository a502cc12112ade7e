import ResponseCache.Origin
import ResponseCache.Store
/-!
The service: a store, the origin behind it and the observers of its events. A fetch looks the key up, asks the origin
about the copy, has the store decide on the answer, and serves the representation that the client has in mind.
-/
namespace ResponseCache

/-- The settings of a cache. -/
structure Config where
  /-- How long a flush waits; for ever without a limit. -/
  flushTimeout : Option Span := some (.ofMillis 30000)
  /-- The most bytes that an alternative may have. -/
  maxStreamBytes : Option Nat := some 67108864
  /-- A notice is written when more changes than this wait for the backend. -/
  queueWarn : Nat := 1024
  deriving DecidableEq, Repr

/-- Refuses settings under which every write or every flush would fail. -/
def Config.validate (c : Config) : Except Error Unit :=
  if c.maxStreamBytes = some 0 then .error (.config "max_stream_bytes must be positive")
  else if c.flushTimeout = some ⟨0⟩ then
    .error (.config "flush_timeout must be positive; use no timeout to wait forever")
  else .ok ()

/-- Where events go. -/
inductive Publisher
  /-- Nobody observes. -/
  | nobody
  | collector
  | log (level : Level)
  /-- Publishing always fails, for this reason. -/
  | broken (error : Error)
  deriving DecidableEq, Repr

structure Service where
  store : Store := {}
  origin : Origin := {}
  publisher : Publisher := .nobody
  /-- What the collector has received. -/
  collected : List Event := []
  config : Config := {}
  deriving Repr

inductive Representation
  | primary | alternative
  deriving DecidableEq, Repr

inductive Source
  | network | cache
  deriving DecidableEq, Repr

/-- What a fetch serves. -/
structure Response where
  entry : Entry
  representation : Representation
  body : Bytes
  source : Source
  decision : Decision.Kind
  deriving Repr

namespace Response

def identity (r : Response) : Identity := r.entry.identity

def fromCache (r : Response) : Bool := r.source = .cache

/-- The identity of the entry that the body was read from, absent when the body came from the network. -/
def cacheEntryId (r : Response) : Identity := if r.fromCache then r.entry.identity else .absent

/-- The label of the alternative, when it was served. -/
def alternativeLabel (r : Response) : Option String :=
  match r.representation with
  | .alternative => r.entry.alternativeLabel
  | .primary => none

/-- The content type of the body. -/
def contentType (r : Response) (streams : Streams) : String :=
  match r.representation, r.entry.alternative with
  | .alternative, some a => streams.contentType a.stream
  | _, _ => streams.contentType r.entry.primary

end Response

/-- An alternative in the making, bound to the generation that it is made from. -/
structure Output where
  key : Key
  identity : Identity
  label : String
  stream : StreamId
  deriving DecidableEq, Repr

namespace Service

/-- A service with these settings; with persistence it keeps a journal. -/
def start (config : Config) (persistent : Bool) (origin : Origin) (publisher : Publisher) : Service :=
  let journal : Option Journal :=
    if persistent then some { patience := config.flushTimeout, warnAbove := config.queueWarn } else none
  { store := { journal }, origin, publisher, config }

def note (s : Service) (n : Notice) : Service :=
  { s with store := { s.store with monitor := s.store.monitor.note n } }

def count (s : Service) (f : Counters → Counters) : Service :=
  { s with store := { s.store with monitor := s.store.monitor.count f } }

/-- Hands an event to a publisher. That it fails is noted and has no other effect. -/
def publishTo (s : Service) (publisher : Publisher) (e : Event) : Service :=
  match publisher with
  | .nobody => s
  | .collector => { s with collected := s.collected ++ [e] }
  | .log level => s.note (.event level e)
  | .broken error => s.note (.publishFailed e.name error)

def publish (s : Service) (e : Event) : Service := s.publishTo s.publisher e

/-- The event that tells of a reconciliation. One that changed nothing is not told of. -/
def eventFor? (streams : Streams) (now : Moment) (r : Reconciliation) : Option Event :=
  if !r.changed then none
  else match r.kind with
    | .keep => none
    | .attach => some (.attached streams r.entry now.date)
    | .clear => some (.cleared r.entry now.date)
    | .replace =>
      some (if r.created then .created streams r.entry now.date else .replaced streams r.entry r.previous now.date)

def publishReconciliation (s : Service) (streams : Streams) (now : Moment) (r : Reconciliation) : Service :=
  match eventFor? streams now r with
  | some e => s.publish e
  | none => s

/-- The first half of a fetch: looks the key up and puts the question to the origin. -/
def inquire (s : Service) (key : Key) (intent : Intent) : Answer × Service :=
  let (current, store) := s.store.lookup key
  let (answer, origin) := s.origin.ask ⟨key, identityOf current, intent.wantsAlternative, intent.label?⟩
  (answer, { s with store, origin })

/-- Serves an entry: the alternative if it is there under the label that the client has in mind, else the primary. -/
def serve (s : Service) (streams : Streams) (intent : Intent) (source : Source) (r : Reconciliation) :
    Except Error Response × Service :=
  let alternative := intent.label?.bind r.entry.alternativeFor
  match streams.content (alternative.getD r.entry.primary) with
  | .error e => (.error e, s)
  | .ok body =>
    let representation : Representation := if alternative.isSome then .alternative else .primary
    (.ok ⟨r.entry, representation, body, source, r.kind⟩,
      s.count (·.countServed (source = .cache) (representation = .alternative)))

/-- The second half of a fetch: has the store decide on what the origin said, tells the observers, and serves. -/
def conclude (s : Service) (streams : Streams) (now : Moment) (key : Key) (intent : Intent) (outcome : Outcome) :
    Except Error Response × Service :=
  let source : Source := if outcome = .notModified then .cache else .network
  let (answer, store) := s.store.reconcileWith streams now key fun current => Decision.decide key current outcome intent
  let s := { s with store }
  match answer with
  | .ok r => (s.publishReconciliation streams now r).serve streams intent source r
  | .error (.inconsistentRevalidation k reason) =>
    let e := Error.inconsistentRevalidation k reason
    let s := (s.note (.revalidationRejected key.display e)).count (·.countInconsistent)
    (.error e, s.publish (.revalidationRejected key.display e.message now.date))
  | .error e => (.error e, s)

/-- Serves a key after asking the origin about it. -/
def fetch (s : Service) (streams : Streams) (now : Moment) (key : Key) (intent : Intent) :
    Except Error Response × Streams × Service :=
  let (answer, s) := s.inquire key intent
  let (received, streams) := answer.receive streams
  match received with
  | .error e => (.error e, streams, s)
  | .ok outcome =>
    let (response, s) := s.conclude streams now key intent outcome
    (response, streams, s)

/-- Opens an output for an alternative to the content of an entry. The label is its content type too. -/
def openOutput (s : Service) (streams : Streams) (entry : Entry) (label : String) : Output × Streams :=
  let (stream, streams) := streams.add { contentType := label, limit := s.config.maxStreamBytes }
  (⟨entry.key, entry.identity, label, stream⟩, streams)

/-- Seals an output and attaches it, if the entry is still of the generation that it was made from. -/
def finish (s : Service) (streams : Streams) (now : Moment) (o : Output) : Except Error Entry × Streams × Service :=
  match streams.finish o.stream with
  | .error e => (.error e, streams, s)
  | .ok streams =>
    let (answer, store) := s.store.attach streams now o.key o.identity ⟨o.label, o.stream⟩
    let s := { s with store }
    match answer with
    | .error e => (.error e, streams, s)
    | .ok r => (.ok r.entry, streams, s.publishReconciliation streams now r)

/-- Removes the alternative of a key. -/
def clear (s : Service) (streams : Streams) (now : Moment) (key : Key) : Except Error Entry × Service :=
  let (answer, store) := s.store.clear streams now key
  let s := { s with store }
  match answer with
  | .error e => (.error e, s)
  | .ok r => (.ok r.entry, s.publishReconciliation streams now r)

/-- Removes the entry of a key. -/
def evict (s : Service) (now : Moment) (key : Key) : Except Error (Option Identity) × Service :=
  let (answer, store) := s.store.evict now key
  let s := { s with store }
  match answer with
  | .ok (some identity) => (answer, s.publish (.entryEvicted key.display identity now.date))
  | _ => (answer, s)

/-- The pipeline of a store with a journal, over this backend. -/
def pipeline? (s : Service) (backend : Backend) : Option Pipeline :=
  s.store.journal.map fun journal => ⟨journal, backend, s.store.monitor⟩

/-- Puts what a pipeline made of the journal and of the monitor back. -/
def withPipeline (s : Service) (p : Pipeline) : Service :=
  { s with store := { s.store with journal := some p.journal, monitor := p.monitor } }

end Service
end ResponseCache
