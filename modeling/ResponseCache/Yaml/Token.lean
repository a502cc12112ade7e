import ResponseCache.Text
import ResponseCache.Yaml.Scalar

namespace ResponseCache.Yaml

inductive Token
  | version (major minor : Nat)
  | tagHandle (handle : String) (start : Bytes)
  | documentStart
  | documentEnd
  | blockSequence
  | blockMapping
  /-- The end of a block collection, where the indentation falls back. -/
  | blockEnd
  | openBracket
  | closeBracket
  | openBrace
  | closeBrace
  | entry
  | comma
  | key
  | value
  | alias (name : String)
  | anchor (name : String)
  | tag (handle : String) (suffix : Bytes)
  | scalar (style : Style) (text : String)
  deriving DecidableEq, Repr

/-- Characters that may follow the name of an anchor or alias, apart from blanks and breaks. -/
def endsName (x : Char) : Bool := "?:,]\x7d%@\x60".contains x

/-- The name of an anchor or an alias, behind its indicator. -/
def name? (c : Cursor) : Option (String × Cursor) :=
  let (name, c) := c.readWhile isWordChar
  if name.isEmpty || !(c.endsAt 0 || c.satisfies endsName) then none else some (String.ofList name, c)

/-- Characters of a tag; between angle brackets there are a few more. -/
def isTagChar (verbatim : Bool) (x : Char) : Bool :=
  isWordChar x || ";/?:@&=+$.%!~*'()".contains x || (verbatim && ",[]".contains x)

/-- The number of octets in the code of a character that starts with this octet. -/
def octetCount? (n : Nat) : Option Nat :=
  if n < 0x80 then some 1 else if n / 0x20 = 6 then some 2 else if n / 0x10 = 14 then some 3
  else if n / 8 = 30 then some 4 else none

/-- One octet, written with a percent sign. -/
def octet? (c : Cursor) : Option (Nat × Cursor) :=
  match c.rest with
  | '%' :: a :: b :: _ => (hexNumber? [a, b]).map fun n => (n, c.skipMany 3)
  | _ => none

/-- As many octets of a character as still have to follow its first one. -/
def laterOctets? : Nat → Cursor → Option (List Nat × Cursor)
  | 0, c => some ([], c)
  | n + 1, c => do
    let (x, c) ← octet? c
    if x / 0x40 != 2 then none
    else do
      let (xs, c) ← laterOctets? n c
      some (x :: xs, c)

/-- The octets of one character, each written with a percent sign. Their number has to fit; whether they are the code of
a character does not matter. -/
def writtenChar? (c : Cursor) : Option (Bytes × Cursor) := do
  let (x, c) ← octet? c
  let (xs, c) ← laterOctets? ((← octetCount? x) - 1) c
  some ((x :: xs).map UInt8.ofNat, c)

/-- The octets of a tag, `octets` being those before them. -/
def tagRest (verbatim : Bool) : Nat → Bytes → Cursor → Option (Bytes × Cursor)
  | 0, _, _ => none
  | fuel + 1, octets, c =>
    match c.peek with
    | some x =>
      if !isTagChar verbatim x then some (octets, c)
      else if x = '%' then do
        let (xs, c) ← writtenChar? c
        tagRest verbatim fuel (octets ++ xs) c
      else tagRest verbatim fuel (octets ++ [x.toUInt8]) c.skip
    | none => some (octets, c)

/-- A tag counts only up to its first zero octet. -/
def beforeZero (octets : Bytes) : Bytes := octets.takeWhile (· != 0)

/-- The octets of a tag. There has to be one, if only a zero. -/
def tagOctets? (verbatim : Bool) (c : Cursor) : Option (Bytes × Cursor) := do
  let (octets, c) ← tagRest verbatim c.room [] c
  if octets.isEmpty then none else some (beforeZero octets, c)

/-- An exclamation mark, a word and maybe a second exclamation mark. -/
def tagHandle? (c : Cursor) : Option (List Char × Cursor) :=
  if c.isAt '!' then
    let (word, c) := c.skip.readWhile isWordChar
    if c.isAt '!' then some ('!' :: word ++ ['!'], c.skip) else some ('!' :: word, c)
  else none

/-- The handle and the suffix of a tag. A tag between angle brackets has an empty handle, and so has a lone exclamation
mark. -/
def tagParts? (c : Cursor) : Option (String × Bytes × Cursor) :=
  if c.peekAt 1 = some '<' then do
    let (suffix, c) ← tagOctets? true (c.skipMany 2)
    if c.isAt '>' then some ("", suffix, c.skip) else none
  else do
    let (handle, c) ← tagHandle? c
    if handle.length > 1 && handle.getLast? = some '!' then
      let (suffix, c) ← tagOctets? false c
      some (String.ofList handle, suffix, c)
    else
      let (octets, c) ← tagRest false c.room ((handle.drop 1).map Char.toUInt8) c
      let suffix := beforeZero octets
      if suffix.isEmpty then some ("", Text.toBytes "!", c) else some ("!", suffix, c)

/-- A tag; what follows it is a blank, a line break or, inside brackets, a comma. -/
def tag? (flow : Bool) (c : Cursor) : Option (Token × Cursor) := do
  let (handle, suffix, c) ← tagParts? c
  if c.endsAt 0 || (flow && c.isAt ',') then some (.tag handle suffix, c) else none

/-- A part of a version number, of at most nine digits. -/
def versionPart? (c : Cursor) : Option (Nat × Cursor) :=
  let (ds, c) := c.readWhile Char.isDigit
  if ds.isEmpty || ds.length > 9 then none else some (Nat.ofDigitChars 10 ds 0, c)

def version? (c : Cursor) : Option (Token × Cursor) := do
  let (major, c) ← versionPart? c.skipBlanks
  if c.isAt '.' then
    let (minor, c) ← versionPart? c.skip
    some (.version major minor, c)
  else none

def tagDirective? (c : Cursor) : Option (Token × Cursor) := do
  let (handle, c) ← tagHandle? c.skipBlanks
  if (handle.length > 1 && handle.getLast? != some '!') || !c.satisfies isBlank then none
  else do
    let (start, c) ← tagOctets? true c.skipBlanks
    if c.endsAt 0 then some (.tagHandle (String.ofList handle) start, c) else none

/-- A directive behind its percent sign; only the version of the format and handles of tags can be given. -/
def directive? (c : Cursor) : Option (Token × Cursor) := do
  let (name, c) := c.readWhile isWordChar
  if !c.endsAt 0 then none
  else do
    let (token, c) ←
      if name = "YAML".toList then version? c else if name = "TAG".toList then tagDirective? c else none
    let c := c.skipBlanks
    let c := if c.isAt '#' then c.skipLineRest else c
    if c.atEnd || c.satisfies isBreak then some (token, c.skipBreak) else none

end ResponseCache.Yaml
