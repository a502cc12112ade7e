import ResponseCache.Decision

namespace ResponseCache

/-- What the origin is asked. -/
structure Question where
  key : Key
  /-- The identity of the entry that was there, absent if there was none. -/
  cachedIdentity : Identity
  wantsAlternative : Bool
  preferredLabel : Option String
  deriving DecidableEq, Repr

/-- There is a copy that the origin can confirm. -/
def Question.isConditional (q : Question) : Bool := !q.cachedIdentity.isAbsent

inductive Answer
  | notModified
  | full (body : Bytes) (contentType : String)
  /-- The exchange fails for this reason. -/
  | failure (reason : String)
  deriving DecidableEq, Repr

/-- Answers that were written down beforehand, one for each question. When they run out, every copy is good. -/
structure Origin where
  script : List Answer := []
  questions : List Question := []
  deriving Repr

namespace Origin

def push (o : Origin) (a : Answer) : Origin := { o with script := o.script ++ [a] }

/-- Notes the question down and gives the next answer. -/
def ask (o : Origin) (q : Question) : Answer × Origin :=
  let questions := o.questions ++ [q]
  match o.script with
  | [] => (.notModified, { o with questions })
  | a :: rest => (a, { script := rest, questions })

end Origin

/-- Takes the body of an answer into a stream. -/
def Answer.receive (a : Answer) (streams : Streams) : Except Error Outcome × Streams :=
  match a with
  | notModified => (.ok .notModified, streams)
  | full body contentType =>
    let (primary, streams) := streams.add (.ofContent contentType body)
    (.ok (.full primary), streams)
  | failure reason => (.error (.origin reason), streams)

end ResponseCache
