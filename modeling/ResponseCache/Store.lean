import ResponseCache.Journal
/-!
The store: the live entry of every key. Each key has a slot; a decision about a key is made and applied in its slot, and
a slot that stays vacant is given back. A change of an entry is submitted to the journal, if there is one, before it
becomes visible: a change that the journal refuses does not happen.
-/
namespace ResponseCache

namespace Mint

/-- A call on a mint: for an identity, or to move it past one that was seen elsewhere. -/
inductive Call
  | mint
  | advancePast (seen : Identity)
  deriving DecidableEq, Repr

/-- The next identity, and an error when the identities are used up. -/
def mint (m : Mint) : Except Error Identity × Mint :=
  match m.mint? with
  | some (i, m) => (.ok i, m)
  | none => (.error (.internal "identity space exhausted"), m)

/-- What a call answers, an identity only where it is asked for. -/
def perform (m : Mint) : Call → Except Error (Option Identity) × Mint
  | .mint => (m.mint.1.map some, m.mint.2)
  | .advancePast seen => (.ok none, m.advancePast seen)

/-- Calls in turn, each with its answer. -/
def log (m : Mint) : List Call → List (Call × Except Error (Option Identity))
  | [] => []
  | call :: rest => (call, (m.perform call).1) :: (m.perform call).2.log rest

end Mint

structure Store where
  slots : Table Key (Option Entry) := {}
  mint : Mint := {}
  /-- The number of live entries. -/
  count : Nat := 0
  journal : Option Journal := none
  monitor : Monitor := {}
  deriving Repr

/-- What a decision did. -/
structure Reconciliation where
  /-- The live entry afterwards. -/
  entry : Entry
  kind : Decision.Kind
  /-- The identity before, absent if there was no entry. -/
  previous : Identity
  /-- Whether the live entry is another one than before. -/
  changed : Bool
  deriving DecidableEq, Repr

/-- The decision made the first entry of its key. -/
def Reconciliation.created (r : Reconciliation) : Bool := r.previous.isAbsent && r.kind = .replace

/-- The time of an operation: on the clock that waits are measured on, and in the calendar. -/
structure Moment where
  tick : Nat
  deriving DecidableEq, Repr

def Moment.date (m : Moment) : Timestamp := .ofUnixNanos m.tick

namespace Store

/-- The live entry of a key. -/
def live? (s : Store) (key : Key) : Option Entry := (s.slots.get? key).join

/-- The keys with a live entry. -/
def keys (s : Store) : List Key := s.slots.rows.filterMap fun (key, entry) => entry.map fun _ => key

def lookup (s : Store) (key : Key) : Option Entry × Store :=
  match s.live? key with
  | some entry => (some entry, { s with monitor := s.monitor.count (·.countHit) })
  | none => (none, { s with monitor := s.monitor.count (·.countMiss) })

/-- The identity of the live entry, absent if there is none. -/
def identityOf (s : Store) (key : Key) : Identity := ResponseCache.identityOf (s.live? key)

/-- Gives a key a slot, vacant if it has none yet. -/
def openSlot (s : Store) (key : Key) : Store :=
  if s.slots.contains key then s else { s with slots := s.slots.insert key none }

/-- Takes a vacant slot back. -/
def releaseSlot (s : Store) (key : Key) : Store :=
  if s.slots.get? key = some none then { s with slots := s.slots.erase key } else s

/-- Sets the number of live entries, and shows it. -/
def setCount (s : Store) (n : Nat) : Store := { s with count := n, monitor := s.monitor.count (·.setEntries n) }

/-- Makes an entry the live one of its slot. -/
def install (s : Store) (key : Key) (entry : Entry) (isNew : Bool) : Store :=
  let s := { s with slots := s.slots.insert key (some entry) }
  if isNew then s.setCount (s.count + 1) else s

/-- Submits a change to the journal, if there is one. -/
def submit (s : Store) (now : Moment) (change : Change) : Except Error Store :=
  match s.journal with
  | none => .ok s
  | some journal => do
    let journal ← journal.submit now.tick change
    let monitor := match journal.backlog? with
      | some notice => s.monitor.note notice
      | none => s.monitor
    return { s with journal := some journal, monitor }

/-- Submits the record of an entry. -/
def ship (s : Store) (streams : Streams) (now : Moment) (entry : Entry) : Except Error Store :=
  match s.journal with
  | none => .ok s
  | some _ => do s.submit now (.store (← Record.ofEntry streams entry))

def require (key : Key) (current : Option Entry) : Except Error Entry :=
  match current with
  | some entry => .ok entry
  | none => .error (.keyNotFound key.display)

/-- The entry that a decision makes of the current one, whether it is another one, and the mint afterwards. -/
def resolve (streams : Streams) (now : Moment) (key : Key) (current : Option Entry) (mint : Mint) :
    Decision → Except Error (Entry × Bool) × Mint
  | .keep => ((require key current).map fun entry => (entry, false), mint)
  | .attach alternative =>
    let answer := do
      streams.ensureSealed alternative.stream
      let entry ← require key current
      if entry.alternative = some alternative then return (entry, false)
      return (entry.withAlternative (some alternative) now.date, true)
    (answer, mint)
  | .clear =>
    let answer := do
      let entry ← require key current
      if entry.alternative = none then return (entry, false)
      return (entry.withAlternative none now.date, true)
    (answer, mint)
  | .replace primary alternative =>
    let ready := do
      streams.ensureSealed primary
      match alternative with
      | some a => streams.ensureSealed a.stream
      | none => return ()
    match ready with
    | .error e => (.error e, mint)
    | .ok () =>
      match mint.mint? with
      | none => (.error (.internal "identity space exhausted"), mint)
      | some (identity, mint) =>
        let previous := ResponseCache.identityOf current
        if identity ≤ previous then (.error (.identityCollision key.display previous identity), mint)
        else (.ok (.fresh key identity primary alternative now.date, true), mint)

/-- Decides about the entry in an open slot and applies the decision. -/
def reconcileInSlot (s : Store) (streams : Streams) (now : Moment) (key : Key)
    (decide : Option Entry → Except Error Decision) : Except Error Reconciliation × Store :=
  let current := s.live? key
  let previous := ResponseCache.identityOf current
  match decide current with
  | .error e => (.error e, s)
  | .ok decision =>
    let (answer, mint) := resolve streams now key current s.mint decision
    let s := { s with mint }
    let done (s : Store) (entry : Entry) (changed : Bool) : Except Error Reconciliation × Store :=
      (.ok ⟨entry, decision.kind, previous, changed⟩, { s with monitor := s.monitor.count (·.countDecision decision.kind) })
    match answer with
    | .error e => (.error e, s)
    | .ok (entry, false) => done s entry false
    | .ok (entry, true) =>
      match s.ship streams now entry with
      | .error e => (.error e, s)
      | .ok s => done (s.install key entry previous.isAbsent) entry true

/-- Decides about the live entry of a key and applies the decision, with nothing in between. -/
def reconcileWith (s : Store) (streams : Streams) (now : Moment) (key : Key)
    (decide : Option Entry → Except Error Decision) : Except Error Reconciliation × Store :=
  let (answer, s) := (s.openSlot key).reconcileInSlot streams now key decide
  (answer, s.releaseSlot key)

def reconcile (s : Store) (streams : Streams) (now : Moment) (key : Key) (decision : Decision) :
    Except Error Reconciliation × Store :=
  s.reconcileWith streams now key fun _ => .ok decision

/-- Attaches an alternative to the generation with that identity, and to no other. -/
def attach (s : Store) (streams : Streams) (now : Moment) (key : Key) (expected : Identity) (alternative : Alternative) :
    Except Error Reconciliation × Store :=
  s.reconcileWith streams now key fun current =>
    let identity := ResponseCache.identityOf current
    if identity ≠ expected ∨ expected.isAbsent then .error (.staleEntry key.display expected identity)
    else .ok (.attach alternative)

def clear (s : Store) (streams : Streams) (now : Moment) (key : Key) : Except Error Reconciliation × Store :=
  s.reconcile streams now key .clear

/-- Removes the live entry of a key and answers with its identity; nothing happens if there is none. -/
def evict (s : Store) (now : Moment) (key : Key) : Except Error (Option Identity) × Store :=
  match s.slots.get? key with
  | none => (.ok none, s)
  | some none => (.ok none, s.releaseSlot key)
  | some (some entry) =>
    match s.submit now (.remove key) with
    | .error e => (.error e, s)
    | .ok s =>
      let s := { s with slots := s.slots.insert key none }.setCount (s.count - 1)
      (.ok (some entry.identity), { s with monitor := s.monitor.count (·.countEviction) }.releaseSlot key)

/-- Evicts keys in turn, up to the first failure, and counts the entries that were there. -/
def evictEach (now : Moment) : List Key → Nat → Store → Except Error Nat × Store
  | [], n, s => (.ok n, s)
  | key :: rest, n, s =>
    match s.evict now key with
    | (.error e, s) => (.error e, s)
    | (.ok removed, s) => evictEach now rest (n + removed.isSome.toNat) s

def evictAll (s : Store) (now : Moment) : Except Error Nat × Store := evictEach now s.keys 0 s

/-- Takes one record in. A record without identity is passed over; any other moves the mint past its identity, and
becomes the live entry of its key unless there is one. -/
def restoreOne (now : Moment) (record : Record) (streams : Streams) (s : Store) : Bool × Streams × Store :=
  if record.identity.isAbsent then
    (false, streams, { s with monitor := s.monitor.note (.recordSkipped record.key.display) })
  else
    let s := { s with mint := s.mint.advancePast record.identity }
    let (entry, streams) := record.toEntry streams now.date
    if (s.live? record.key).isSome then (false, streams, s)
    else (true, streams, s.install record.key entry true)

/-- Takes records in, in turn, and counts those that became live. -/
def restore (now : Moment) : List Record → Streams → Store → Nat × Streams × Store
  | [], streams, s => (0, streams, s)
  | record :: rest, streams, s =>
    let (installed, streams, s) := restoreOne now record streams s
    let (n, streams, s) := restore now rest streams s
    (n + installed.toNat, streams, s)

end Store
end ResponseCache
