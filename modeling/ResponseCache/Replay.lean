import ResponseCache.Scenario
import ResponseCache.Site

namespace ResponseCache

/-- What is told about a step. -/
structure Report where
  step : Nat
  action : String
  key : Option String := none
  identity : Option Identity := none
  cacheEntryId : Option Identity := none
  decision : Option Decision.Kind := none
  fromCache : Option Bool := none
  alternativeType : Option String := none
  bodyLength : Option Nat := none
  persistedRecords : Option Nat := none
  deriving DecidableEq, Repr

/-- A report as one object; what is not told has no field. -/
def Report.toJson (r : Report) : Json :=
  let field {α : Type} (name : String) (f : α → Json) (value : Option α) : List (String × Json) :=
    (value.map fun a => (name, f a)).toList
  .ofFields ([("step", .ofNat r.step), ("action", .ofString r.action)] ++
    field "key" .ofString r.key ++
    field "identity" Identity.toJson r.identity ++
    field "cache_entry_id" Identity.toJson r.cacheEntryId ++
    field "decision" (fun kind => .ofString (Decision.Kind.name kind)) r.decision ++
    field "from_cache" .bool r.fromCache ++
    field "alternative_type" .ofString r.alternativeType ++
    field "body_len" .ofNat r.bodyLength ++
    field "persisted_records" .ofNat r.persistedRecords)

/-- The line for a report. -/
def Report.line (r : Report) : String := r.toJson.render

/-- A site with what the client remembers: the last response for each key, and identities under names. -/
structure Replayer where
  site : Site
  last : Table String Response := {}
  remembered : Table String Identity := {}
  deriving Repr

namespace Replayer

/-- A replayer on a new site, at that time. -/
def start (now : Nat) (config : Config) (persistent : Bool) : Replayer :=
  { site := { now, service := .start config persistent {} .nobody } }

def mismatch (step : Nat) (what : String) : Except Error Unit :=
  .error (.scenario ("step " ++ toString step ++ ": " ++ what))

def describeIdentityExpectation : IdentityExpectation → String
  | .absent => "Absent"
  | .present => "Present"
  | .sameAs name => "SameAs(" ++ Text.quote name ++ ")"
  | .differsFrom name => "DiffersFrom(" ++ Text.quote name ++ ")"

def checkBody (step : Nat) (body : Bytes) : Option String → Except Error Unit
  | some expected =>
    if body = Text.toBytes expected then .ok ()
    else mismatch step ("expected body " ++ Text.quote expected ++ ", got " ++ Text.quote (Text.ofBytes body))
  | none => .ok ()

def checkAlternativeType (step : Nat) (label : String) : Option String → Except Error Unit
  | some expected =>
    if label = expected then .ok ()
    else mismatch step ("expected alternative type " ++ Text.quote expected ++ ", got " ++ Text.quote label)
  | none => .ok ()

def checkFromCache (step : Nat) (fromCache : Bool) : Option Bool → Except Error Unit
  | some expected =>
    if fromCache = expected then .ok ()
    else mismatch step ("expected from_cache=" ++ toString expected ++ ", got " ++ toString fromCache)
  | none => .ok ()

/-- The identity under a name, which has to be remembered. -/
def rememberedAs (r : Replayer) (step : Nat) (name : String) : Except Error Identity :=
  match r.remembered.get? name with
  | some identity => .ok identity
  | none => .error (.scenario ("step " ++ toString step ++ ": nothing remembered as " ++ Text.quote name))

/-- Whether an identity is as expected. -/
def satisfies (r : Replayer) (step : Nat) (identity : Identity) : IdentityExpectation → Except Error Bool
  | .absent => .ok identity.isAbsent
  | .present => .ok !identity.isAbsent
  | .sameAs name => (r.rememberedAs step name).map (identity == ·)
  | .differsFrom name => (r.rememberedAs step name).map (identity != ·)

def checkCacheEntryId (r : Replayer) (step : Nat) (identity : Identity) : Option IdentityExpectation → Except Error Unit
  | some expected => do
    if ← r.satisfies step identity expected then return ()
    else mismatch step ("cache entry id " ++ identity.display ++ " does not satisfy " ++ describeIdentityExpectation expected)
  | none => .ok ()

/-- Compares a response with what was expected of it, then remembers its identity if that was asked for. -/
def check (r : Replayer) (step : Nat) (response : Response) (e : Expectation) : Except Error Replayer := do
  checkBody step response.body e.body
  checkAlternativeType step (response.alternativeLabel.getD "") e.alternativeType
  checkFromCache step response.fromCache e.fromCache
  r.checkCacheEntryId step response.cacheEntryId e.cacheEntryId
  match e.remember with
  | some name => return { r with remembered := r.remembered.insert name response.identity }
  | none => return r

def fetch (r : Replayer) (step : Nat) (key : String) (prefer : Option String) (expect : Option Expectation) :
    Except Error Report × Replayer :=
  let (answer, site) := r.site.fetch (.ofUri key) (prefer.elim .none .prefer)
  let r := { r with site }
  match answer with
  | .error e => (.error e, r)
  | .ok response =>
    match expect.elim (.ok r) (r.check step response) with
    | .error e => (.error e, r)
    | .ok r =>
      (.ok {
        step, action := "fetch", key
        identity := response.identity
        cacheEntryId := response.cacheEntryId
        decision := response.decision
        fromCache := response.fromCache
        alternativeType := response.alternativeLabel
        bodyLength := response.body.length },
        { r with last := r.last.insert key response })

/-- Writes an alternative to the content of a response, all of it at once. -/
def writeAlternative (r : Replayer) (step : Nat) (key label data : String) : Except Error Report × Replayer :=
  match r.last.get? key with
  | none =>
    (.error (.scenario ("step " ++ toString step ++ ": write_alternative for " ++ key ++ " before any fetch")), r)
  | some response =>
    let bytes := Text.toBytes data
    let (output, site) := r.site.openOutput r.site.current response.entry label
    match site.writeOutput output bytes with
    | .error e => (.error e, { r with site })
    | .ok site =>
      let (answer, site) := site.finish site.current output
      (answer.map fun entry => {
        step, action := "write_alternative", key
        identity := entry.identity
        alternativeType := entry.alternativeLabel
        bodyLength := bytes.length },
        { r with site })

/-- Waits for the journal, and tells how many records the backend has then, if there is a journal. -/
def flush (r : Replayer) (step : Nat) : Except Error Report × Replayer :=
  let (answer, site) := r.site.flush
  let persistedRecords := site.service.store.journal.map fun _ => site.backend.records.size
  (answer.map fun _ => { step, action := "flush", persistedRecords }, { r with site })

def evict (r : Replayer) (step : Nat) (key : String) : Except Error Report × Replayer :=
  let (answer, site) := r.site.evict (.ofUri key)
  (answer.map fun identity => { step, action := "evict", key, identity }, { r with site })

def clearAlternative (r : Replayer) (step : Nat) (key : String) : Except Error Report × Replayer :=
  let (answer, site) := r.site.clear (.ofUri key)
  (answer.map fun entry => { step, action := "clear_alternative", key, identity := entry.identity }, { r with site })

/-- One step, under its number. -/
def runStep (r : Replayer) (n : Nat) : Step → Except Error Report × Replayer
  | .fetch key prefer expect => r.fetch n key prefer expect
  | .writeAlternative key label data => r.writeAlternative n key label data
  | .flush => r.flush n
  | .evict key => r.evict n key
  | .clearAlternative key => r.clearAlternative n key

/-- How a replay went: the reports of the steps that succeeded, and the error that ended it, if one did. -/
structure Transcript where
  reports : List Report
  failure : Option Error
  deriving DecidableEq, Repr

/-- What a replay writes: the line of each report, ended by a newline. -/
def Transcript.output (t : Transcript) : Bytes := t.reports.flatMap fun report => Text.toBytes report.line ++ [0x0a]

/-- Steps from the one with number `n` on, up to the first that fails. -/
def runSteps (n : Nat) : List Step → Replayer → Transcript × Replayer
  | [], r => (⟨[], none⟩, r)
  | step :: rest, r =>
    match r.runStep n step with
    | (.error e, r) => (⟨[], some e⟩, r)
    | (.ok report, r) =>
      let (transcript, r) := runSteps (n + 1) rest r
      ({ transcript with reports := report :: transcript.reports }, r)

/-- Gives the origin more answers. -/
def script (r : Replayer) (answers : List ScriptedAnswer) : Replayer :=
  let service := r.site.service
  let origin := answers.foldl (fun origin a => origin.push a.toAnswer) service.origin
  { r with site := { r.site with service := { service with origin } } }

/-- Replays a scenario behind those before it. -/
def run (r : Replayer) (s : Scenario) : Transcript × Replayer := runSteps 1 s.steps (r.script s.origin)

/-- What reading a file gave: its bytes, or the reason why there are none. -/
abbrev FileContent := Except FileError Bytes

/-- The text of a file, which has to be well-formed. -/
def textOfFile : FileContent → Except Error String
  | .error cause => .error (.io cause)
  | .ok bytes =>
    match Text.ofBytes? bytes with
    | some text => .ok text
    | none => .error (.io .notText)

/-- Replays the scenario that a file holds; a file that holds none gives no reports. -/
def runFile (r : Replayer) (content : FileContent) : Transcript × Replayer :=
  match (textOfFile content).bind Scenario.parse with
  | .error e => (⟨[], some e⟩, r)
  | .ok scenario => r.run scenario

end Replayer
end ResponseCache
