import ResponseCache.Counters
import ResponseCache.Event.Json

namespace ResponseCache

inductive Level
  | debug | info | warn | error
  deriving DecidableEq, Repr

def Level.name : Level → String
  | debug => "DEBUG"
  | info => "INFO"
  | warn => "WARN"
  | error => "ERROR"

/-- What a cache writes to its log. -/
inductive Notice
  /-- More changes wait for the backend than should. -/
  | backlog (pending : Nat)
  | changeFailed (key : String) (seq : Nat) (error : Error)
  | revalidationRejected (key : String) (error : Error)
  /-- An event did not reach the observers. -/
  | publishFailed (event : String) (error : Error)
  /-- A record of the backend names no generation. -/
  | recordSkipped (key : String)
  | event (level : Level) (event : Event)
  deriving DecidableEq, Repr

namespace Notice

def level : Notice → Level
  | backlog _ | publishFailed _ _ | recordSkipped _ => .warn
  | changeFailed .. | revalidationRejected .. => .error
  | event level _ => level

def message : Notice → String
  | backlog _ => "Persistence backlog above warning threshold"
  | changeFailed .. => "Persistence operation failed"
  | revalidationRejected .. => "Rejecting inconsistent revalidation"
  | publishFailed .. => "Failed to publish cache event"
  | recordSkipped _ => "Skipping persisted record without identity"
  | event .. => "Cache event"

/-- The named values that a notice carries. -/
def fields : Notice → List (String × String)
  | backlog pending => [("pending", toString pending)]
  | changeFailed key seq error => [("key", key), ("seq", toString seq), ("error", error.message)]
  | revalidationRejected key error => [("key", key), ("error", error.message)]
  | publishFailed name error => [("event_type", name), ("error", error.message)]
  | recordSkipped key => [("key", key)]
  | event _ e => [("event_type", e.name), ("event", e.toJson.render)]

end Notice

/-- What one can see of a cache from outside: its counters and its log, the oldest notice first. -/
structure Monitor where
  counters : Counters := {}
  notices : List Notice := []
  deriving Repr

namespace Monitor

def note (m : Monitor) (n : Notice) : Monitor := { m with notices := m.notices ++ [n] }

def count (m : Monitor) (f : Counters → Counters) : Monitor := { m with counters := f m.counters }

end Monitor
end ResponseCache
