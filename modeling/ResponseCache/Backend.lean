import ResponseCache.Record
import ResponseCache.Table

namespace ResponseCache

/-- A change of an entry that the backend is to repeat. -/
inductive Change
  | store (record : Record)
  | remove (key : Key)
  deriving DecidableEq, Repr

namespace Change

def key : Change → Key
  | store record => record.key
  | remove key => key

def verb : Change → String
  | store _ => "store"
  | remove _ => "remove"

/-- What the change makes of records. -/
def applyTo (records : Table Key Record) : Change → Table Key Record
  | store record => records.insert record.key record
  | remove key => records.erase key

end Change

/-- Durable records by key, kept in memory. A backend can be told to let the next operations fail. -/
structure Backend where
  records : Table Key Record := {}
  totalBytes : Nat := 0
  writes : Nat := 0
  deletes : Nat := 0
  /-- How many of the next operations fail. -/
  failing : Nat := 0
  /-- How long every operation takes. -/
  latency : Span := ⟨0⟩
  deriving Repr

namespace Backend

def get? (b : Backend) (key : Key) : Option Record := b.records.get? key

def failNext (b : Backend) (n : Nat) : Backend := { b with failing := n }

/-- The bytes of the record under a key, zero without one. -/
def sizeAt (b : Backend) (key : Key) : Nat := ((b.get? key).map (·.sizeBytes)).getD 0

/-- Puts a record in, in place of the one with its key. Nothing is counted and nothing fails. -/
def insert (b : Backend) (record : Record) : Backend :=
  { b with
    records := b.records.insert record.key record
    totalBytes := b.totalBytes - b.sizeAt record.key + record.sizeBytes }

/-- Takes the record with that key out. -/
def erase (b : Backend) (key : Key) : Backend :=
  { b with records := b.records.erase key, totalBytes := b.totalBytes - b.sizeAt key }

/-- One operation: it fails while failures are due, which uses one of them up, and else has its effect. The answer of a
removal is whether there was a record. -/
def apply (b : Backend) (change : Change) : Except Error Bool × Backend :=
  if 0 < b.failing then
    (.error (.persistence ("injected " ++ change.verb ++ " failure for " ++ change.key.display)),
      { b with failing := b.failing - 1 })
  else match change with
    | .store record => (.ok true, { b.insert record with writes := b.writes + 1 })
    | .remove key => (.ok (b.get? key).isSome, { b.erase key with deletes := b.deletes + 1 })

/-- All records. -/
def load (b : Backend) : List Record := b.records.values

end Backend
end ResponseCache
