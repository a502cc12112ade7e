import ResponseCache.Error
import ResponseCache.Text
import ResponseCache.Text.Quoted
/-!
Byte streams. A stream is written by one writer, then sealed; from then on its content stays as it is. A stream whose
writer leaves before sealing it is aborted and never has content. Streams are kept in one place and named by handles,
so that several entries and clients can hold the same stream.
-/
namespace ResponseCache

/-- Where a stream stands in its life, with what was written to it. -/
inductive Phase
  | writing (buffer : Bytes)
  | sealed (content : Bytes)
  | aborted
  deriving DecidableEq, Repr

structure Stream where
  contentType : String
  limit : Option Nat := none
  phase : Phase := .writing []
  deriving DecidableEq, Repr

namespace Stream

/-- A stream that has its content from the start. -/
def ofContent (contentType : String) (content : Bytes) : Stream := ⟨contentType, none, .sealed content⟩

/-- Appends bytes, unless they would lead past the limit. A refused write changes nothing. -/
def write (s : Stream) (bytes : Bytes) : Except Error Stream :=
  match s.phase, s.limit with
  | .writing buffer, some limit =>
    if buffer.length + bytes.length > limit then .error (.streamTooLarge (buffer.length + bytes.length) limit)
    else .ok { s with phase := .writing (buffer ++ bytes) }
  | .writing buffer, none => .ok { s with phase := .writing (buffer ++ bytes) }
  | _, _ => .error .streamSealed

/-- Seals the stream: what was written is the content. -/
def finish (s : Stream) : Except Error Stream :=
  match s.phase with
  | .writing buffer => .ok { s with phase := .sealed buffer }
  | _ => .error .streamSealed

/-- The writer leaves. -/
def release (s : Stream) : Stream :=
  match s.phase with
  | .writing _ => { s with phase := .aborted }
  | _ => s

/-- The number of bytes that were accepted. -/
def written (s : Stream) : Nat :=
  match s.phase with
  | .writing buffer => buffer.length
  | .sealed content => content.length
  | .aborted => 0

def content (s : Stream) : Except Error Bytes :=
  match s.phase with
  | .sealed content => .ok content
  | .writing _ => .error .streamNotReady
  | .aborted => .error .streamAborted

/-- What one learns who waits for the writer: nothing yet, or how it ended. -/
def poll (s : Stream) : Option (Except Error Unit) :=
  match s.phase with
  | .writing _ => none
  | .sealed _ => some (.ok ())
  | .aborted => some (.error .streamAborted)

def isSealed (s : Stream) : Bool :=
  match s.phase with
  | .sealed _ => true
  | _ => false

/-- The length of the content, once there is one. -/
def length? (s : Stream) : Option Nat :=
  match s.phase with
  | .sealed content => some content.length
  | _ => none

/-- Whether there is content and it has no bytes. -/
def isEmpty (s : Stream) : Bool := s.length? = some 0

/-- The stream in one line: its content type, phase and length. -/
def describe (s : Stream) : String :=
  let phase := match s.phase with
    | .writing _ => "Open"
    | .sealed _ => "Sealed"
    | .aborted => "Aborted"
  let length := match s.length? with
    | none => "None"
    | some n => "Some(" ++ toString n ++ ")"
  "ByteStream \x7b content_type: " ++ Text.quote s.contentType ++ ", phase: " ++ phase ++ ", len: " ++ length ++ " \x7d"

end Stream

/-- A cursor over the content of a sealed stream. A reader holds the content itself, so whatever happens to the stream later
does not touch it, and a copy of a reader goes on from the same place on its own. -/
structure Reader where
  data : Bytes
  position : Nat := 0
  deriving DecidableEq, Repr

namespace Reader

/-- A reader at the start of a stream's content. -/
def ofStream (s : Stream) : Except Error Reader := s.content.map fun data => ⟨data, 0⟩

def remaining (r : Reader) : Nat := r.data.length - r.position

/-- The next bytes, at most `most` of them; nothing at the end, and nothing when none are asked for. -/
def nextChunk (r : Reader) (most : Nat) : Option Bytes × Reader :=
  if r.data.length ≤ r.position || most = 0 then (none, r)
  else
    let stop := min (r.position + most) r.data.length
    (some ((r.data.drop r.position).take (stop - r.position)), { r with position := stop })

/-- The call as it is made on 64 bits. Where the place to stop wraps around, the chunk would end before it starts, and there is
no answer. -/
def nextChunk? (r : Reader) (most : UInt64) : Option (Option Bytes × Reader) :=
  if r.data.length ≤ r.position || most = 0 then some (none, r)
  else
    let stop := min (r.position.toUInt64 + most).toNat r.data.length
    if stop < r.position then none
    else some (some ((r.data.drop r.position).take (stop - r.position)), { r with position := stop })

/-- Fills the front of a buffer and says how many bytes it put there; the rest of the buffer stays as it was. Buffers and
contents take up at most half of what 64 bits can count, so that the place to stop does not wrap around here. -/
def read (r : Reader) (buffer : Bytes) : Nat × Bytes × Reader :=
  match r.nextChunk buffer.length with
  | (none, r) => (0, buffer, r)
  | (some chunk, r) => (chunk.length, chunk ++ buffer.drop chunk.length, r)

/-- All that is left. -/
def readToEnd (r : Reader) : Bytes × Reader := (r.data.drop r.position, { r with position := max r.position r.data.length })

end Reader

/-- The handle of a stream. Equal handles are the same stream. -/
abbrev StreamId := Nat

/-- All streams there are, each under its handle. -/
structure Streams where
  cells : Array Stream := #[]
  deriving Repr

namespace Streams

def get? (s : Streams) (id : StreamId) : Option Stream := s.cells[id]?

/-- Takes a stream in under a fresh handle. -/
def add (s : Streams) (stream : Stream) : StreamId × Streams := (s.cells.size, ⟨s.cells.push stream⟩)

/-- Puts a stream in the place of the one with that handle. -/
def set (s : Streams) (id : StreamId) (stream : Stream) : Streams := ⟨s.cells.setIfInBounds id stream⟩

/-- A handle without a stream counts as a stream that was aborted. -/
def content (s : Streams) (id : StreamId) : Except Error Bytes :=
  match s.get? id with
  | some stream => stream.content
  | none => .error .streamAborted

def contentType (s : Streams) (id : StreamId) : String := ((s.get? id).map (·.contentType)).getD ""

/-- The number of bytes of sealed content; zero while there is none. -/
def size (s : Streams) (id : StreamId) : Nat := ((s.get? id).bind (·.length?)).getD 0

/-- Refuses a stream without content, with the reason why it has none. -/
def ensureSealed (s : Streams) (id : StreamId) : Except Error Unit := (s.content id).map fun _ => ()

def isSealed (s : Streams) (id : StreamId) : Bool := ((s.get? id).map (·.isSealed)).getD false

/-- One writer's action on the stream with that handle. -/
def update (s : Streams) (id : StreamId) (f : Stream → Except Error Stream) : Except Error Streams :=
  match s.get? id with
  | none => .error .streamSealed
  | some stream => (f stream).map (s.set id)

def write (s : Streams) (id : StreamId) (bytes : Bytes) : Except Error Streams := s.update id (·.write bytes)

def finish (s : Streams) (id : StreamId) : Except Error Streams := s.update id (·.finish)

def release (s : Streams) (id : StreamId) : Streams :=
  match s.get? id with
  | none => s
  | some stream => s.set id stream.release

end Streams
end ResponseCache
