import ResponseCache.Entry

namespace ResponseCache

/-- What the client has in mind with the alternative of the entry that it fetches. -/
inductive Intent
  | none
  /-- Be served the alternative under this label, if there is one. -/
  | prefer (label : String)
  /-- Store this alternative beside the primary. -/
  | supply (alternative : Alternative)
  deriving DecidableEq, Repr

def Intent.label? : Intent → Option String
  | none => Option.none
  | prefer label => some label
  | supply alternative => some alternative.label

def Intent.wantsAlternative : Intent → Bool
  | none => false
  | _ => true

/-- What the origin said: the copy is good, or here is the content, received into a stream. -/
inductive Outcome
  | notModified
  | full (primary : StreamId)
  deriving DecidableEq, Repr

/-- What is to become of an entry. -/
inductive Decision
  | keep
  | attach (alternative : Alternative)
  | clear
  | replace (primary : StreamId) (alternative : Option Alternative)
  deriving DecidableEq, Repr

namespace Decision

inductive Kind
  | keep | attach | clear | replace
  deriving DecidableEq, Repr

def Kind.name : Kind → String
  | keep => "keep"
  | attach => "attach_alternative"
  | clear => "clear_alternative"
  | replace => "replace"

def kind : Decision → Kind
  | keep => .keep
  | attach _ => .attach
  | clear => .clear
  | replace _ _ => .replace

/-- New content replaces the entry, and an alternative supplied beside it is taken only where there was no entry: else
it was made from content that is gone. A good copy is kept, with the supplied alternative attached unless it already is. -/
def decide (key : Key) (current : Option Entry) (outcome : Outcome) (intent : Intent) : Except Error Decision :=
  match outcome, current with
  | .notModified, none =>
    .error (.inconsistentRevalidation key.display "origin reported not-modified but nothing is cached")
  | .notModified, some entry =>
    match intent with
    | .supply a => if entry.alternative = some a then .ok keep else .ok (attach a)
    | _ => .ok keep
  | .full primary, none =>
    match intent with
    | .supply a => .ok (replace primary (some a))
    | _ => .ok (replace primary none)
  | .full primary, some _ => .ok (replace primary none)

end Decision
end ResponseCache
