import ResponseCache.Entry

namespace ResponseCache

structure AlternativeRecord where
  label : String
  contentType : String
  data : Bytes
  deriving DecidableEq, Repr

/-- The durable form of an entry, with the bytes of its streams in place of the streams. -/
structure Record where
  key : Key
  identity : Identity
  contentType : String
  primary : Bytes
  alternative : Option AlternativeRecord := none
  createdAt : Timestamp
  deriving DecidableEq, Repr

namespace Record

def ofAlternative (streams : Streams) (a : Alternative) : Except Error AlternativeRecord :=
  (streams.content a.stream).map fun data => ⟨a.label, streams.contentType a.stream, data⟩

/-- The record of an entry. It exists when the streams of the entry are sealed. -/
def ofEntry (streams : Streams) (e : Entry) : Except Error Record := do
  let alternative ← match e.alternative with
    | none => pure none
    | some a => some <$> ofAlternative streams a
  let primary ← streams.content e.primary
  return ⟨e.key, e.identity, streams.contentType e.primary, primary, alternative, e.createdAt⟩

/-- The bytes that the record carries. -/
def sizeBytes (r : Record) : Nat := r.primary.length + ((r.alternative.map (·.data.length)).getD 0)

/-- The entry that a record stands for, over fresh sealed streams. -/
def toEntry (r : Record) (streams : Streams) (now : Timestamp) : Entry × Streams :=
  let (primary, streams) := streams.add (.ofContent r.contentType r.primary)
  match r.alternative with
  | none => (⟨r.key, r.identity, primary, none, 0, r.createdAt, now⟩, streams)
  | some a =>
    let (stream, streams) := streams.add (.ofContent a.contentType a.data)
    (⟨r.key, r.identity, primary, some ⟨a.label, stream⟩, 0, r.createdAt, now⟩, streams)

end Record
end ResponseCache
