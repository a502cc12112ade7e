import ResponseCache.Backend
import ResponseCache.Notice
/-!
The journal: changes of entries on their way to the backend. Every change gets the next sequence number when it is
submitted. One writer takes the changes in that order, lets the backend repeat each, files the failure if there was one,
and then publishes the number as committed. A barrier stands for all changes submitted before it: it is reached when the
last of them is committed, and it collects the failures among them.
-/
namespace ResponseCache

/-- A change with its number and the time when it was submitted. -/
structure Queued where
  seq : Nat
  change : Change
  submittedAt : Nat
  deriving DecidableEq, Repr

structure Failure where
  seq : Nat
  reason : String
  deriving DecidableEq, Repr

/-- How far the writer is with the change that it took last. -/
inductive Hand
  | empty
  /-- The backend works on it until that time. -/
  | working (item : Queued) (due : Nat)
  /-- It is done, or it failed for that reason, which is not filed yet. -/
  | settled (item : Queued) (failure : Option String)
  /-- Its failure, if it has one, is filed; its number is not committed yet. -/
  | filed (item : Queued)
  deriving DecidableEq, Repr

structure Journal where
  /-- How long a barrier is waited for; for ever without a limit. -/
  patience : Option Span := some (.ofMillis 30000)
  /-- Above this number of changes not yet committed a notice is written. -/
  warnAbove : Nat := 1024
  accepting : Bool := true
  /-- The changes still waiting are not to be written any more. -/
  cancelled : Bool := false
  lastSeq : Nat := 0
  queue : List Queued := []
  hand : Hand := .empty
  /-- When the backend was done with the change before. -/
  freeAt : Nat := 0
  committed : Nat := 0
  failures : List Failure := []
  deriving Repr

/-- The last number that is waited for, and since when. -/
structure Barrier where
  target : Nat
  since : Nat
  deriving DecidableEq, Repr

namespace Journal

/-- The number of changes submitted and not yet committed. -/
def pending (j : Journal) : Nat := j.lastSeq - j.committed

/-- Takes a change in under the next number. -/
def submit (j : Journal) (now : Nat) (change : Change) : Except Error Journal :=
  if j.accepting then .ok { j with lastSeq := j.lastSeq + 1, queue := j.queue ++ [⟨j.lastSeq + 1, change, now⟩] }
  else .error (.persistence "flush coordinator is shut down")

/-- The notice that is due after a submission. -/
def backlog? (j : Journal) : Option Notice := if j.warnAbove < j.pending then some (.backlog j.pending) else none

/-- No more changes are taken in. -/
def close (j : Journal) : Journal := { j with accepting := false }

/-- No more changes are taken in, and those that wait are dropped. -/
def cancel (j : Journal) : Journal := { j with accepting := false, cancelled := true }

/-- An idle writer takes the next change. The backend starts on it when it was submitted or when the change before it was
done, whichever is later; a cancelled journal drops it instead. -/
def take (j : Journal) (latency : Span) : Journal :=
  match j.hand, j.queue with
  | .empty, item :: rest =>
    if j.cancelled then { j with queue := rest, hand := .settled item (some "aborted before persistence") }
    else { j with queue := rest, hand := .working item (max j.freeAt item.submittedAt + latency.nanos) }
  | _, _ => j

/-- The backend is done with the change, with this result. -/
def settle (j : Journal) (result : Except Error Bool) : Journal :=
  match j.hand with
  | .working item due =>
    let failure := match result with
      | .ok _ => none
      | .error e => some (item.change.key.display ++ ": " ++ e.message)
    { j with hand := .settled item failure, freeAt := due }
  | _ => j

/-- Files the failure of the change in hand. -/
def file (j : Journal) : Journal :=
  match j.hand with
  | .settled item (some reason) => { j with hand := .filed item, failures := j.failures ++ [⟨item.seq, reason⟩] }
  | .settled item none => { j with hand := .filed item }
  | _ => j

/-- Publishes the number of the change in hand as committed. -/
def publish (j : Journal) : Journal :=
  match j.hand with
  | .filed item => { j with hand := .empty, committed := item.seq }
  | _ => j

/-- The writer has nothing in hand, and nothing waits. -/
def isIdle (j : Journal) : Bool := j.hand = .empty && j.queue.isEmpty

/-- When the backend is done with the change in hand. -/
def due? (j : Journal) : Option Nat :=
  match j.hand with
  | .working _ due => some due
  | _ => none

/-- A barrier behind everything submitted so far. -/
def barrier (j : Journal) (now : Nat) : Barrier := ⟨j.lastSeq, now⟩

def reached (j : Journal) (b : Barrier) : Bool := b.target ≤ j.committed

/-- When waiting for a barrier ends without it being reached. -/
def deadline? (j : Journal) (b : Barrier) : Option Nat := j.patience.map fun p => b.since + p.nanos

/-- Takes the failures in front of a barrier out, and answers with their number and the first of them. -/
def collect (j : Journal) (b : Barrier) : Except Error Unit × Journal :=
  let covered := j.failures.filter fun f => f.seq ≤ b.target
  let answer := match covered with
    | [] => .ok ()
    | first :: _ => .error (.flushFailed covered.length first.reason)
  (answer, { j with failures := j.failures.filter fun f => !(f.seq ≤ b.target) })

end Journal

/-- A journal, the backend it writes to, and the monitor it reports to. -/
structure Pipeline where
  journal : Journal
  backend : Backend
  monitor : Monitor
  deriving Repr

namespace Pipeline

def take (p : Pipeline) : Pipeline := { p with journal := p.journal.take p.backend.latency }

/-- The change in hand reaches the backend. A failure is noted. -/
def apply (p : Pipeline) : Pipeline :=
  match p.journal.hand with
  | .working item _ =>
    let (result, backend) := p.backend.apply item.change
    let monitor := match result with
      | .ok _ => p.monitor
      | .error e => p.monitor.note (.changeFailed item.change.key.display item.seq e)
    { journal := p.journal.settle result, backend, monitor }
  | _ => p

/-- The change in hand is counted, and its failure filed. -/
def file (p : Pipeline) : Pipeline :=
  match p.journal.hand with
  | .settled _ (some _) => { p with journal := p.journal.file, monitor := p.monitor.count (·.countFailure) }
  | .settled _ none => { p with journal := p.journal.file, monitor := p.monitor.count (·.countPersisted) }
  | _ => p

def publish (p : Pipeline) : Pipeline := { p with journal := p.journal.publish }

/-- Drops changes of a cancelled journal, one after the other. -/
def drop : Nat → Pipeline → Pipeline
  | 0, p => p
  | n + 1, p => drop n p.take.file.publish

/-- An idle writer turns to what waits: it takes the next change, or drops all of them when the journal is cancelled. -/
def pickUp (p : Pipeline) : Pipeline :=
  if p.journal.cancelled && p.journal.hand = .empty then drop p.journal.queue.length p else p.take

/-- The writer brings the change in hand to its end and turns to the next one. -/
def advance (p : Pipeline) : Pipeline := p.apply.file.publish.pickUp

/-- Advances past all changes that the backend is done with by now. -/
def advanceTo (now : Nat) : Nat → Pipeline → Pipeline
  | 0, p => p
  | n + 1, p => if p.journal.due?.any (· ≤ now) then advanceTo now n p.advance else p

/-- One turn of the writer: it does all that it can without time passing. -/
def turn (now : Nat) (p : Pipeline) : Pipeline := advanceTo now (p.journal.queue.length + 1) p.pickUp

end Pipeline
end ResponseCache
