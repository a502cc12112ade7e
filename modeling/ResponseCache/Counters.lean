import ResponseCache.Decision
import ResponseCache.Time

namespace ResponseCache

structure Counters where
  hits : Nat := 0
  misses : Nat := 0
  servedFromCache : Nat := 0
  servedFromNetwork : Nat := 0
  alternativesServed : Nat := 0
  inconsistentRevalidations : Nat := 0
  keeps : Nat := 0
  attaches : Nat := 0
  clears : Nat := 0
  replaces : Nat := 0
  evictions : Nat := 0
  /-- The number of live entries. -/
  entries : Nat := 0
  persistedOps : Nat := 0
  persistenceFailures : Nat := 0
  flushes : Nat := 0
  /-- The smoothed latency of flushes in microseconds. -/
  flushLatency : UInt64 := 0
  deriving DecidableEq, Repr

namespace Counters

def countHit (c : Counters) : Counters := { c with hits := c.hits + 1 }
def countMiss (c : Counters) : Counters := { c with misses := c.misses + 1 }

/-- A response was served, and its body came from the cache or from the network. -/
def countServed (c : Counters) (fromCache alternative : Bool) : Counters :=
  { c with
    servedFromCache := c.servedFromCache + fromCache.toNat
    servedFromNetwork := c.servedFromNetwork + (!fromCache).toNat
    alternativesServed := c.alternativesServed + alternative.toNat }

def countInconsistent (c : Counters) : Counters :=
  { c with inconsistentRevalidations := c.inconsistentRevalidations + 1 }

def countDecision (c : Counters) : Decision.Kind → Counters
  | .keep => { c with keeps := c.keeps + 1 }
  | .attach => { c with attaches := c.attaches + 1 }
  | .clear => { c with clears := c.clears + 1 }
  | .replace => { c with replaces := c.replaces + 1 }

def countEviction (c : Counters) : Counters := { c with evictions := c.evictions + 1 }
def setEntries (c : Counters) (n : Nat) : Counters := { c with entries := n }
def countPersisted (c : Counters) : Counters := { c with persistedOps := c.persistedOps + 1 }
def countFailure (c : Counters) : Counters := { c with persistenceFailures := c.persistenceFailures + 1 }

/-- Nine parts of what it was and one part of what is new; the first latency counts in full. -/
def smooth (current new : UInt64) : UInt64 :=
  if current = 0 then new else ((1.0 - 0.1) * current.toFloat + 0.1 * new.toFloat).toUInt64

def countFlush (c : Counters) (elapsed : Span) : Counters :=
  { c with flushes := c.flushes + 1, flushLatency := smooth c.flushLatency elapsed.micros.toUInt64 }

/-- The share of the lookups that found an entry; zero when there were none. -/
def hitRatio (c : Counters) : Float :=
  let hits := c.hits.toUInt64.toFloat
  let total := hits + c.misses.toUInt64.toFloat
  if total == 0.0 then 0.0 else hits / total

end Counters
end ResponseCache
