import ResponseCache.Stream
/-!
Stages: how far the writer of a stream is, without what it wrote. The stage is kept beside the stream, in a place where one
can wait for it to change: whoever asks for it, or waits for the writer to end, does not touch the content. The writer
changes the stream first and announces the stage then.
-/
namespace ResponseCache

inductive Stage
  | writing
  | sealed
  | aborted
  deriving DecidableEq, Repr

namespace Stream

/-- A new stream, for one writer. -/
def opened (contentType : String) (limit : Option Nat) : Stream := { contentType, limit }

def stage (s : Stream) : Stage :=
  match s.phase with
  | .writing _ => .writing
  | .sealed _ => .sealed
  | .aborted => .aborted

/-- A write to the stream as a sink of bytes, which is told how many of its bytes were taken: all of them. -/
def put (s : Stream) (bytes : Bytes) : Except Error (Nat × Stream) := (s.write bytes).map fun s => (bytes.length, s)

end Stream

/-- A stream with the stage that was announced last. -/
structure Announced where
  stream : Stream
  stage : Stage
  deriving DecidableEq, Repr

namespace Announced

def opened (contentType : String) (limit : Option Nat) : Announced := ⟨.opened contentType limit, .writing⟩

def write (a : Announced) (bytes : Bytes) : Except Error Announced :=
  (a.stream.write bytes).map fun stream => { a with stream }

def finish (a : Announced) : Except Error Announced := a.stream.finish.map fun stream => ⟨stream, .sealed⟩

/-- The writer leaves, which is announced if it was not done. -/
def release (a : Announced) : Announced :=
  match a.stream.phase with
  | .writing _ => ⟨a.stream.release, .aborted⟩
  | _ => a

def isSealed (a : Announced) : Bool := a.stage = .sealed

/-- What one learns who waits for the writer: nothing yet, or how it ended. -/
def poll (a : Announced) : Option (Except Error Unit) :=
  match a.stage with
  | .writing => none
  | .sealed => some (.ok ())
  | .aborted => some (.error .streamAborted)

end Announced
end ResponseCache
