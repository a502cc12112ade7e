import ResponseCache.CommandLine.Help
import ResponseCache.Exposition
import ResponseCache.Replay

namespace ResponseCache.CommandLine

/-- What a run leaves: its exit code and the lines on the two outputs. -/
structure Result where
  code : Nat
  output : List String := []
  errors : List String := []
  deriving DecidableEq, Repr

/-- The message of an error, and then that of the error which caused it. -/
def causes (e : Error) : List String :=
  match e with
  | .io cause => [e.message, cause.message]
  | _ => [e.message]

/-- A number in a column of five. -/
def rightAligned (n : Nat) : String :=
  let ds := Nat.toDigits 10 n
  String.ofList (List.replicate (5 - ds.length) ' ' ++ ds)

/-- One cause: indented, and numbered when it is not the only one. -/
def causeLines (number : Option Nat) (cause : String) : List String :=
  let (first, next) := match number with
    | some n => (rightAligned n ++ ": ", "       ")
    | none => ("    ", "    ")
  match cause.splitOn "\n" with
  | [] => []
  | line :: rest => (first ++ line) :: rest.map (next ++ ·)

/-- What was being done when an error arose, and the causes behind it. -/
def account (activity : String) (e : Error) : List String :=
  let lines := match causes e with
    | [cause] => causeLines none cause
    | several => several.zipIdx.flatMap fun (cause, n) => causeLines (some n) cause
  ("Error: " ++ activity).splitOn "\n" ++ ["", "Caused by:"] ++ lines

def configOf (o : Options) : Config :=
  let standard : Config := {}
  { standard with
    flushTimeout := if o.flushTimeout = 0 then none else some (.ofMillis o.flushTimeout)
    maxStreamBytes := o.maxStreamBytes <|> standard.maxStreamBytes }

/-- Replays the content of the file at that time. -/
def replay (o : Options) (content : Replayer.FileContent) (now : Nat) : Result :=
  let config := configOf o
  match config.validate with
  | .error e => { code := 1, errors := account "invalid configuration" e }
  | .ok () =>
    let (transcript, r) := (Replayer.start now config o.persist).runFile content
    let lines := transcript.reports.map Report.line
    match transcript.failure with
    | some e => { code := 1, output := lines, errors := account ("replaying " ++ o.file) e }
    | none =>
      let counters := r.site.service.store.monitor.counters
      let metrics :=
        if o.printMetrics then Exposition.lines counters (.ofMicros counters.flushLatency.toNat) else []
      { code := 0, output := lines ++ metrics }

/-- Shows a help page. -/
def help (env : Environment) (page : HelpPage) : Result := { code := 0, output := Help.lines env page }

def version : Result := { code := 0, output := ["entrystor 0.1.0"] }

def usage (e : UsageError) : Result := { code := 2, errors := ["error: " ++ e.message] }

end ResponseCache.CommandLine
