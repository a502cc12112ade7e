import ResponseCache.Entry

namespace ResponseCache

/-- What a cache tells its observers about its entries. -/
inductive Event
  | entryCreated (key : String) (identity : Identity) (contentType : String) (sizeBytes : Nat)
      (alternative : Option String) (timestamp : Timestamp)
  | entryReplaced (key : String) (previous identity : Identity) (sizeBytes : Nat) (timestamp : Timestamp)
  | alternativeAttached (key : String) (identity : Identity) (label : String) (sizeBytes : Nat) (timestamp : Timestamp)
  | alternativeCleared (key : String) (identity : Identity) (timestamp : Timestamp)
  | entryEvicted (key : String) (identity : Identity) (timestamp : Timestamp)
  | revalidationRejected (key reason : String) (timestamp : Timestamp)
  deriving DecidableEq, Repr

namespace Event

/-- The name of the kind of event. -/
def name : Event → String
  | entryCreated .. => "EntryCreated"
  | entryReplaced .. => "EntryReplaced"
  | alternativeAttached .. => "AlternativeAttached"
  | alternativeCleared .. => "AlternativeCleared"
  | entryEvicted .. => "EntryEvicted"
  | revalidationRejected .. => "RevalidationRejected"

/-- The text of the key that the event is about. -/
def key : Event → String
  | entryCreated key .. | entryReplaced key .. | alternativeAttached key .. | alternativeCleared key ..
  | entryEvicted key .. | revalidationRejected key .. => key

def timestamp : Event → Timestamp
  | entryCreated _ _ _ _ _ t | entryReplaced _ _ _ _ t | alternativeAttached _ _ _ _ t | alternativeCleared _ _ t
  | entryEvicted _ _ t | revalidationRejected _ _ t => t

def created (streams : Streams) (e : Entry) (now : Timestamp) : Event :=
  entryCreated e.key.display e.identity (streams.contentType e.primary) (streams.size e.primary) e.alternativeLabel now

def replaced (streams : Streams) (e : Entry) (previous : Identity) (now : Timestamp) : Event :=
  entryReplaced e.key.display previous e.identity (streams.size e.primary) now

/-- The alternative of an entry was attached. Without one, the label is empty and the size zero. -/
def attached (streams : Streams) (e : Entry) (now : Timestamp) : Event :=
  alternativeAttached e.key.display e.identity (e.alternativeLabel.getD "")
    ((e.alternative.map fun a => streams.size a.stream).getD 0) now

def cleared (e : Entry) (now : Timestamp) : Event := alternativeCleared e.key.display e.identity now

end Event
end ResponseCache
