import ResponseCache.Yaml.Layout
/-!
The tree of a YAML document: scalars with their tags and styles, sequences and mappings. The octets of a tag need not be
a text. An alias refers to a node by number. A name has as its number the number of the names before it, those given
twice counted once; a number stands for the last node under it. A name that is given again thus shares its number with
the next new name.
-/
namespace ResponseCache.Yaml

inductive Node
  | scalar (tag : Option Bytes) (style : Style) (text : String)
  | sequence (tag : Option Bytes) (items : List Node)
  | mapping (tag : Option Bytes) (members : List (Node × Node))
  /-- The node with this number. -/
  | reference (number : Nat)
  deriving Repr, Inhabited

structure Document where
  root : Node
  /-- The nodes with numbers, in their order. -/
  numbered : Array Node := #[]

namespace Node

/-- The node where a place is left empty. -/
def empty : Node := .scalar none .plain ""

mutual

/-- The number of scalars and aliases in a tree, and of the ends of its sequences and mappings. -/
def size : Node → Nat
  | scalar .. => 1
  | reference _ => 1
  | sequence _ items => 2 + itemsSize items
  | mapping _ members => 2 + membersSize members

def itemsSize : List Node → Nat
  | [] => 0
  | item :: rest => item.size + itemsSize rest

def membersSize : List (Node × Node) → Nat
  | [] => 0
  | (key, value) :: rest => key.size + value.size + membersSize rest

end

/-- What is left to read, and what has a name so far. -/
structure Source where
  tokens : List Token
  /-- Each name with its latest number. -/
  numbers : List (String × Nat) := []
  /-- The nodes that have names with their numbers, in the order in which they start. A node that is still being read has
  no content yet. -/
  named : Array (Nat × Node) := #[]

/-- The nodes under their numbers. Of two with the same number the later one counts. -/
def Source.numbered (s : Source) : Array Node :=
  s.named.foldl (fun nodes (number, node) =>
    if number < nodes.size then nodes.setIfInBounds number node else nodes.push node) #[]

abbrev Read := StateT Source Option

def peek : Read (Option Token) := do return (← get).tokens.head?

def skip : Read Unit := modify fun s => { s with tokens := s.tokens.drop 1 }

def fail {α : Type} : Read α := fun _ => none

/-- The next token, if there is one, is none of these. -/
def notAt (ts : List Token) : Read Bool := do return (← peek).all (!ts.contains ·)

/-- Passes this very token. -/
def expect (t : Token) : Read Unit := do if (← peek) = some t then skip else fail

/-- The node of an alias, by the latest number of its name. -/
def named? (name : String) : Read Node := do
  match (← get).numbers.lookup name with
  | some number => return reference number
  | none => fail

/-- Reads a node under a name, which already holds within the node. -/
def withName (name : Option String) (read : Read Node) : Read Node :=
  match name with
  | none => read
  | some name => do
    let s ← get
    let number := s.numbers.length
    let place := s.named.size
    set { s with
      numbers := (name, number) :: s.numbers.filter (·.1 != name)
      named := s.named.push (number, empty) }
    let node ← read
    modify fun s => { s with named := s.named.setIfInBounds place (number, node) }
    return node

/-- The whole tag, its handle replaced by what the handle stands for. -/
def fullTag? (handles : List (String × Bytes)) (handle : String) (suffix : Bytes) : Option Bytes :=
  if handle.isEmpty then some suffix else (handles.lookup handle).map (· ++ suffix)

def anchor? : Read (Option String) := do
  match ← peek with
  | some (.anchor name) => skip; return some name
  | _ => return none

def tag? (handles : List (String × Bytes)) : Read (Option Bytes) := do
  match ← peek with
  | some (.tag handle suffix) =>
    skip
    match fullTag? handles handle suffix with
    | some tag => return some tag
    | none => fail
  | _ => return none

/-- A name and a tag, each at most once and in either order. -/
def properties? (handles : List (String × Bytes)) : Read (Option String × Option Bytes) := do
  match ← anchor? with
  | some name => return (some name, ← tag? handles)
  | none =>
    let tag ← tag? handles
    return (← anchor?, tag)

/-- A place with a name or a tag and nothing else. -/
def bare (name : Option String) (tag : Option Bytes) : Read Node :=
  if name.isSome || tag.isSome then pure (scalar tag .plain "") else fail

mutual

/-- A node. Only block nodes can be block collections, and only values of a block mapping can be sequences without an
indentation of their own. -/
def node? (handles : List (String × Bytes)) : Nat → Bool → Bool → Read Node
  | 0, _, _ => fail
  | fuel + 1, block, indentless => do
    match ← peek with
    | some (.alias name) => skip; named? name
    | _ =>
      let (name, tag) ← properties? handles
      withName name do
        match ← peek with
        | some .entry => if indentless then return sequence tag (← indentlessItems? handles fuel) else bare name tag
        | some (.scalar style text) => skip; return scalar tag style text
        | some .openBracket => skip; return sequence tag (← flowItems? handles fuel true)
        | some .openBrace => skip; return mapping tag (← flowMembers? handles fuel true)
        | some .blockSequence => if block then skip; return sequence tag (← blockItems? handles fuel) else bare name tag
        | some .blockMapping => if block then skip; return mapping tag (← blockMembers? handles fuel) else bare name tag
        | _ => bare name tag

/-- A node, or an empty place in front of one of these tokens. -/
def nodeUnless? (handles : List (String × Bytes)) : Nat → List Token → Bool → Bool → Read Node
  | 0, _, _, _ => fail
  | fuel + 1, ends, block, indentless => do
    if ← notAt ends then node? handles fuel block indentless else return empty

def blockItems? (handles : List (String × Bytes)) : Nat → Read (List Node)
  | 0 => fail
  | fuel + 1 => do
    match ← peek with
    | some .entry =>
      skip
      let item ← nodeUnless? handles fuel [.entry, .blockEnd] true false
      return item :: (← blockItems? handles fuel)
    | some .blockEnd => skip; return []
    | _ => fail

/-- The items of a sequence that ends where another token than a hyphen follows. -/
def indentlessItems? (handles : List (String × Bytes)) : Nat → Read (List Node)
  | 0 => fail
  | fuel + 1 => do
    match ← peek with
    | some .entry =>
      skip
      let item ← nodeUnless? handles fuel [.entry, .key, .value, .blockEnd] true false
      return item :: (← indentlessItems? handles fuel)
    | _ => return []

def blockMembers? (handles : List (String × Bytes)) : Nat → Read (List (Node × Node))
  | 0 => fail
  | fuel + 1 => do
    match ← peek with
    | some .key =>
      skip
      let key ← nodeUnless? handles fuel [.key, .value, .blockEnd] true true
      let value ← valueUnless? handles fuel [.key, .value, .blockEnd] true
      return (key, value) :: (← blockMembers? handles fuel)
    | some .blockEnd => skip; return []
    | _ => fail

/-- The value of a member; without a colon it is empty. -/
def valueUnless? (handles : List (String × Bytes)) : Nat → List Token → Bool → Read Node
  | 0, _, _ => fail
  | fuel + 1, ends, block => do
    if (← peek) = some .value then
      skip
      nodeUnless? handles fuel ends block block
    else return empty

/-- The items between brackets, the commas between them checked. An item may be a single pair. -/
def flowItems? (handles : List (String × Bytes)) : Nat → Bool → Read (List Node)
  | 0, _ => fail
  | fuel + 1, first => do
    if (← peek) = some .closeBracket then skip; return []
    else
      if !first then expect .comma
      match ← peek with
      | some .closeBracket => skip; return []
      | some .key =>
        skip
        let key ← pairKey? handles fuel
        let value ← valueUnless? handles fuel [.comma, .closeBracket] false
        return mapping none [(key, value)] :: (← flowItems? handles fuel false)
      | _ =>
        let item ← node? handles fuel false false
        return item :: (← flowItems? handles fuel false)

/-- The key of a single pair. Where it is empty, the token behind it is lost. -/
def pairKey? (handles : List (String × Bytes)) : Nat → Read Node
  | 0 => fail
  | fuel + 1 => do
    if ← notAt [.value, .comma, .closeBracket] then node? handles fuel false false
    else
      skip
      return empty

/-- The members between braces, the commas between them checked. A node without a colon is a key with an empty value. -/
def flowMembers? (handles : List (String × Bytes)) : Nat → Bool → Read (List (Node × Node))
  | 0, _ => fail
  | fuel + 1, first => do
    if (← peek) = some .closeBrace then skip; return []
    else
      if !first then expect .comma
      match ← peek with
      | some .closeBrace => skip; return []
      | some .key =>
        skip
        let key ← nodeUnless? handles fuel [.value, .comma, .closeBrace] false false
        let value ← valueUnless? handles fuel [.comma, .closeBrace] false
        return (key, value) :: (← flowMembers? handles fuel false)
      | _ =>
        let key ← node? handles fuel false false
        return (key, empty) :: (← flowMembers? handles fuel false)

end

/-- What the directives before a document set. -/
structure Directives where
  versioned : Bool := false
  handles : List (String × Bytes) := []

/-- Reads the directives; each setting is made once at most, and the version is a known one. -/
def directives? : Nat → Directives → Read Directives
  | 0, _ => fail
  | fuel + 1, d => do
    match ← peek with
    | some (.version major minor) =>
      if d.versioned || major != 1 || !(minor = 1 || minor = 2) then fail
      else
        skip
        directives? fuel { d with versioned := true }
    | some (.tagHandle handle start) =>
      if (d.handles.lookup handle).isSome then fail
      else
        skip
        directives? fuel { d with handles := d.handles ++ [(handle, start)] }
    | _ => return d

/-- The handles that need no directive. -/
def standardHandles : List (String × Bytes) :=
  [("!", Text.toBytes "!"), ("!!", Text.toBytes "tag:yaml.org,2002:")]

/-- The only document of a text, with directives in front of its first line if that is marked. -/
def document? (size : Nat) : Read Node := do
  let d ← directives? size {}
  let handles := d.handles ++ standardHandles
  if (← peek) = some .documentStart then
    skip
    if (← peek).all fun t => t = .documentStart || t = .documentEnd || isDirective t then return empty
    else node? handles (3 * size) true false
  else if d.versioned || !d.handles.isEmpty then fail
  else node? handles (3 * size) true false
where
  isDirective : Token → Bool
    | .version .. => true
    | .tagHandle .. => true
    | _ => false

end Node

/-- The document in a text. There has to be one, and only one. -/
def Document.parse? (text : String) : Option Document := do
  let ts ← tokens? text
  let (root, rest) ← (Node.document? (ts.length + 1)).run { tokens := ts }
  if rest.tokens.all (· = .documentEnd) then some { root, numbered := rest.numbered } else none

end ResponseCache.Yaml
