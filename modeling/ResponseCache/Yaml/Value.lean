import ResponseCache.Yaml.Node
/-!
What a node means where a text, a truth value, a list, a record or one of several choices is expected. References are
followed where a meaning is asked for, and a document sets a limit to how often that is done.
-/
namespace ResponseCache.Yaml

/-- Reads nodes, given the nodes with numbers. The state says how many references may still be followed. -/
abbrev Reading := ReaderT (Array Node) (StateT Nat Option)

def Reading.fail {α : Type} : Reading α := fun _ _ => none

/-- Reads the root of a document. References may be followed a hundred times for each part of the document. -/
def Document.read? {α : Type} (d : Document) (read : Node → Reading α) : Option α :=
  (((read d.root).run d.numbered).run (100 * d.root.size)).map (·.1)

namespace Node

/-- The node itself, or the one that it refers to. -/
def resolve : Node → Reading Node
  | reference number => do
    match ← get with
    | 0 => Reading.fail
    | left + 1 =>
      set left
      (← read)[number]?
  | n => return n

/-- The tag of one of the standard types. -/
def standardTag (type : String) : Bytes := Text.toBytes ("tag:yaml.org,2002:" ++ type)

/-- A tag of the document's own: an exclamation mark is its first octet, and it is well-formed text. -/
def isLocal (tag : Option Bytes) : Bool :=
  tag.any fun octets => octets.head? = some '!'.toUInt8 && (Text.ofBytes? octets).isSome

/-- Every scalar is a text, whatever its tag and its style. -/
def text? (n : Node) : Reading String := do
  match ← n.resolve with
  | scalar _ _ text => return text
  | _ => Reading.fail

def nullWords : List String := ["null", "Null", "NULL", "~"]

/-- A value that may be missing: nothing, or a word for nothing, if it is plain. Behind the tag of nothing only those
words may stand. -/
def optional? {α : Type} (read : Node → Reading α) (n : Node) : Reading (Option α) := do
  let n ← n.resolve
  match n with
  | scalar none .plain text => if text.isEmpty || nullWords.contains text then return none else some <$> read n
  | scalar (some tag) .plain text =>
    if tag = standardTag "null" then if nullWords.contains text then return none else Reading.fail
    else some <$> read n
  | _ => some <$> read n

/-- Truth values are plain words; a literal block with the tag of truth values will do as well. -/
def truth? (n : Node) : Reading Bool := do
  match ← n.resolve with
  | scalar tag style text =>
    if style = .plain || (style = .literal && tag = some (standardTag "bool")) then
      if ["true", "True", "TRUE"].contains text then return true
      else if ["false", "False", "FALSE"].contains text then return false
      else Reading.fail
    else Reading.fail
  | _ => Reading.fail

/-- The items of a list. A place left empty is the empty list. -/
def items? (n : Node) : Reading (List Node) := do
  match ← n.resolve with
  | sequence _ items => return items
  | scalar _ .plain "" => return []
  | _ => Reading.fail

/-- The fields of a record, under their names. A place left empty is a record without fields. -/
def fields? (n : Node) : Reading (List (String × Node)) := do
  match ← n.resolve with
  | mapping _ members => members.mapM fun (name, value) => do return (← name.text?, value)
  | scalar _ .plain "" => return []
  | _ => Reading.fail

/-- The value of a field, read by `read`, or nothing if it is missing. It may not be given twice. -/
def field? {α : Type} (name : String) (read : Node → Reading α) (fields : List (String × Node)) : Reading (Option α) :=
  match fields.filter fun field => field.1 = name with
  | [] => return none
  | [field] => some <$> read field.2
  | _ => Reading.fail

/-- The value of a field that has to be given, once. -/
def required? {α : Type} (name : String) (read : Node → Reading α) (fields : List (String × Node)) : Reading α := do
  (← field? name read fields)

/-- The value of a field that may be missing or be nothing. -/
def optionalField? {α : Type} (name : String) (read : Node → Reading α) (fields : List (String × Node)) :
    Reading (Option α) :=
  Option.join <$> field? name (optional? read) fields

/-- Every field has one of these names. -/
def hasOnly (names : List String) (fields : List (String × Node)) : Bool := fields.all fun field => names.contains field.1

/-- One of several choices: its name alone, or its name with the value that goes with it. A tag of the document's own is
not allowed, nor is one that makes the name anything but a text. -/
def choice? (n : Node) : Reading (String × Option Node) := do
  match ← n.resolve with
  | scalar tag _ text =>
    if isLocal tag || (["bool", "int", "float", "null"].any fun type => tag = some (standardTag type)) then Reading.fail
    else return (text, none)
  | mapping tag [(name, value)] => if isLocal tag then Reading.fail else return (← name.text?, some value)
  | _ => Reading.fail

end Node
end ResponseCache.Yaml
