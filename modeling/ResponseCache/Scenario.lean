import ResponseCache.Origin
import ResponseCache.Yaml.Value

namespace ResponseCache

/-- An answer of the origin as a scenario writes it. -/
inductive ScriptedAnswer
  | notModified
  | full (body contentType : String)
  | failure (reason : String)
  deriving DecidableEq, Repr

def ScriptedAnswer.toAnswer : ScriptedAnswer → Answer
  | notModified => .notModified
  | full body contentType => .full (Text.toBytes body) contentType
  | failure reason => .failure reason

/-- What the identity of the entry that served the body should be. -/
inductive IdentityExpectation
  | absent
  | present
  /-- The identity that was remembered under this name. -/
  | sameAs (name : String)
  /-- Another identity than the one remembered under this name. -/
  | differsFrom (name : String)
  deriving DecidableEq, Repr

/-- What a response should look like; what is not said is not checked. -/
structure Expectation where
  body : Option String := none
  /-- The label of the alternative that is served, empty for the primary. -/
  alternativeType : Option String := none
  fromCache : Option Bool := none
  cacheEntryId : Option IdentityExpectation := none
  /-- The name under which the identity of the entry is remembered. -/
  remember : Option String := none
  deriving DecidableEq, Repr

inductive Step
  | fetch (key : String) (prefer : Option String) (expect : Option Expectation)
  /-- Stores an alternative to the content of the last response for the key. -/
  | writeAlternative (key label data : String)
  | flush
  | evict (key : String)
  | clearAlternative (key : String)
  deriving DecidableEq, Repr

def Step.action : Step → String
  | fetch .. => "fetch"
  | writeAlternative .. => "write_alternative"
  | flush => "flush"
  | evict _ => "evict"
  | clearAlternative _ => "clear_alternative"

structure Scenario where
  name : Option String := none
  origin : List ScriptedAnswer := []
  steps : List Step
  deriving DecidableEq, Repr

namespace Scenario
open Yaml (Node Reading)
open Yaml.Node

/-- The content type of an answer that gives none. -/
def standardContentType : String := "text/plain"

def answerOf? (n : Node) : Reading ScriptedAnswer := do
  match ← n.choice? with
  | (name, none) => if name = "not_modified" then return .notModified else Reading.fail
  | (name, some value) =>
    if name = "full" then
      let fields ← value.fields?
      let contentType ← field? "content_type" text? fields
      return .full (← required? "body" text? fields) (contentType.getD standardContentType)
    else if name = "failure" then return .failure (← value.text?)
    else Reading.fail

def identityExpectationOf? (n : Node) : Reading IdentityExpectation := do
  match ← n.choice? with
  | (name, none) =>
    if name = "absent" then return .absent else if name = "present" then return .present else Reading.fail
  | (name, some value) =>
    if name = "same_as" then return .sameAs (← value.text?)
    else if name = "differs_from" then return .differsFrom (← value.text?)
    else Reading.fail

/-- An expectation has no fields but its own. -/
def expectationOf? (n : Node) : Reading Expectation := do
  let fields ← n.fields?
  if hasOnly ["body", "alternative_type", "from_cache", "cache_entry_id", "remember"] fields then
    return {
      body := ← optionalField? "body" text? fields
      alternativeType := ← optionalField? "alternative_type" text? fields
      fromCache := ← optionalField? "from_cache" truth? fields
      cacheEntryId := ← optionalField? "cache_entry_id" identityExpectationOf? fields
      remember := ← optionalField? "remember" text? fields }
  else Reading.fail

/-- The step of a kind with these fields; other fields are passed over. -/
def stepOfFields? (name : String) (fields : List (String × Node)) : Reading Step := do
  if name = "fetch" then
    return .fetch (← required? "key" text? fields) (← optionalField? "prefer" text? fields)
      (← optionalField? "expect" expectationOf? fields)
  else if name = "write_alternative" then
    return .writeAlternative (← required? "key" text? fields) (← required? "label" text? fields)
      (← required? "data" text? fields)
  else if name = "evict" then return .evict (← required? "key" text? fields)
  else if name = "clear_alternative" then return .clearAlternative (← required? "key" text? fields)
  else Reading.fail

def stepOf? (n : Node) : Reading Step := do
  match ← n.choice? with
  | (name, none) => if name = "flush" then return .flush else Reading.fail
  | (name, some value) => stepOfFields? name (← value.fields?)

/-- A scenario has no fields but its own, and it has steps. -/
def ofNode? (n : Node) : Reading Scenario := do
  let fields ← n.fields?
  if hasOnly ["name", "origin", "steps"] fields then
    let answers (n : Node) : Reading (List ScriptedAnswer) := do (← n.items?).mapM answerOf?
    let steps (n : Node) : Reading (List Step) := do (← n.items?).mapM stepOf?
    return {
      name := ← optionalField? "name" text? fields
      origin := (← field? "origin" answers fields).getD []
      steps := ← required? "steps" steps fields }
  else Reading.fail

/-- The scenario that a YAML text holds. -/
def parse (text : String) : Except Error Scenario :=
  match (Yaml.Document.parse? text).bind (·.read? ofNode?) with
  | some scenario => .ok scenario
  | none => .error .yaml

end Scenario
end ResponseCache
