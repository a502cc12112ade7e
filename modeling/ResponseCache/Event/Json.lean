import ResponseCache.Event
import ResponseCache.Json.Printer
import ResponseCache.Json.Reader
import ResponseCache.Json.Strict
/-!
Events as JSON: an object with the name of the kind under `type` and the fields of that kind behind it. Reading takes the
fields in any order, passes over others, and takes an array with the name first and exactly the fields behind it too.
-/
namespace ResponseCache.Event

def timestampToJson (t : Timestamp) : Json := .ofString (t.render "Z")

/-- The fields of an event in their order. -/
def fields : Event → List (String × Json)
  | entryCreated key identity contentType sizeBytes alternative t =>
    [("key", .ofString key), ("identity", identity.toJson), ("content_type", .ofString contentType),
      ("size_bytes", .ofNat sizeBytes), ("alternative", .ofOption .ofString alternative), ("timestamp", timestampToJson t)]
  | entryReplaced key previous identity sizeBytes t =>
    [("key", .ofString key), ("previous", previous.toJson), ("identity", identity.toJson),
      ("size_bytes", .ofNat sizeBytes), ("timestamp", timestampToJson t)]
  | alternativeAttached key identity label sizeBytes t =>
    [("key", .ofString key), ("identity", identity.toJson), ("label", .ofString label),
      ("size_bytes", .ofNat sizeBytes), ("timestamp", timestampToJson t)]
  | alternativeCleared key identity t =>
    [("key", .ofString key), ("identity", identity.toJson), ("timestamp", timestampToJson t)]
  | entryEvicted key identity t =>
    [("key", .ofString key), ("identity", identity.toJson), ("timestamp", timestampToJson t)]
  | revalidationRejected key reason t =>
    [("key", .ofString key), ("reason", .ofString reason), ("timestamp", timestampToJson t)]

def toJson (e : Event) : Json := .ofFields (("type", .ofString e.name) :: e.fields)

/-- The names of the fields of a kind of event, in their order. -/
def fieldNames? (name : String) : Option (List String) :=
  if name = "EntryCreated" then some ["key", "identity", "content_type", "size_bytes", "alternative", "timestamp"]
  else if name = "EntryReplaced" then some ["key", "previous", "identity", "size_bytes", "timestamp"]
  else if name = "AlternativeAttached" then some ["key", "identity", "label", "size_bytes", "timestamp"]
  else if name = "AlternativeCleared" then some ["key", "identity", "timestamp"]
  else if name = "EntryEvicted" then some ["key", "identity", "timestamp"]
  else if name = "RevalidationRejected" then some ["key", "reason", "timestamp"]
  else none

def sizeOfJson? (j : Json) : Option Nat := j.asNat? UInt64.size

def timestampOfJson? (j : Json) : Option Timestamp := j.asString?.bind Timestamp.parse?

/-- A label or the null value. -/
def labelOfJson? : Json → Option (Option String)
  | .null => some none
  | j => j.asString?.map some

/-- The event of a kind with these values for its fields. -/
def ofValues? (name : String) (values : List Json) : Option Event :=
  match values with
  | [key, identity, contentType, sizeBytes, alternative, t] =>
    if name = "EntryCreated" then
      return entryCreated (← key.asString?) (← Identity.ofJson? identity) (← contentType.asString?)
        (← sizeOfJson? sizeBytes) (← labelOfJson? alternative) (← timestampOfJson? t)
    else none
  | [key, second, third, sizeBytes, t] =>
    if name = "EntryReplaced" then
      return entryReplaced (← key.asString?) (← Identity.ofJson? second) (← Identity.ofJson? third)
        (← sizeOfJson? sizeBytes) (← timestampOfJson? t)
    else if name = "AlternativeAttached" then
      return alternativeAttached (← key.asString?) (← Identity.ofJson? second) (← third.asString?)
        (← sizeOfJson? sizeBytes) (← timestampOfJson? t)
    else none
  | [key, second, t] =>
    if name = "AlternativeCleared" then
      return alternativeCleared (← key.asString?) (← Identity.ofJson? second) (← timestampOfJson? t)
    else if name = "EntryEvicted" then
      return entryEvicted (← key.asString?) (← Identity.ofJson? second) (← timestampOfJson? t)
    else if name = "RevalidationRejected" then
      return revalidationRejected (← key.asString?) (← second.asString?) (← timestampOfJson? t)
    else none
  | _ => none

/-- The value of a field among the members of an object. Only the alternative may be left out, which is as good as null. -/
def valueOf? (fields : List (String × Json)) (name : String) : Option Json := do
  match ← Json.field? name fields with
  | some value => some value
  | none => if name = "alternative" then some .null else none

def ofJson? : Json → Option Event
  | .object members => do
    let fields ← Json.fields? members
    let name ← (← Json.required? "type" fields).asString?
    let values ← (← fieldNames? name).mapM (valueOf? fields)
    ofValues? name values
  | .array (name :: values) => do ofValues? (← name.asString?) values
  | _ => none

/-- The event that a JSON text stands for. -/
def parse? (text : String) : Option Event := do
  let j ← Json.parse? text
  if j.strict 127 then ofJson? j else none

end ResponseCache.Event
