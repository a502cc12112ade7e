import ResponseCache.Key
import ResponseCache.Stream
import ResponseCache.Time

namespace ResponseCache

/-- Another representation of the same content, under a label. -/
structure Alternative where
  label : String
  stream : StreamId
  deriving DecidableEq, Repr

/-- A snapshot of one key's content: the primary stream, at most one alternative to it, and the identity of the
generation that the primary belongs to. The revision counts the changes of the alternative within a generation, so two
snapshots of one cache that agree in everything are one. -/
structure Entry where
  key : Key
  identity : Identity
  primary : StreamId
  alternative : Option Alternative
  revision : Nat
  createdAt : Timestamp
  updatedAt : Timestamp
  deriving DecidableEq, Repr

namespace Entry

/-- The first snapshot of a new generation. -/
def fresh (key : Key) (identity : Identity) (primary : StreamId) (alternative : Option Alternative)
    (now : Timestamp) : Entry :=
  ⟨key, identity, primary, alternative, 0, now, now⟩

/-- The same generation with another alternative, or with none. -/
def withAlternative (e : Entry) (alternative : Option Alternative) (now : Timestamp) : Entry :=
  { e with alternative, revision := e.revision + 1, updatedAt := now }

def alternativeLabel (e : Entry) : Option String := e.alternative.map (·.label)

/-- The alternative stream, if it is there under that label. -/
def alternativeFor (e : Entry) (label : String) : Option StreamId :=
  (e.alternative.filter fun a => a.label = label).map (·.stream)

end Entry

/-- The identity of an entry that may not be there. -/
def identityOf (e : Option Entry) : Identity := (e.map (·.identity)).getD .absent

end ResponseCache
