import ResponseCache.Yaml.Cursor

namespace ResponseCache.Yaml

inductive Style
  | plain | singleQuoted | doubleQuoted | literal | folded
  deriving DecidableEq, Repr

/-- What lies between two words: blanks on one line, or line breaks of which the first is kept apart. -/
structure Gap where
  blanks : List Char := []
  first : Option (List Char) := none
  more : List Char := []

/-- The gap goes over a line break. -/
def Gap.breaks (g : Gap) : Bool := g.first.isSome

/-- What a gap counts for: a lone line break is a space, and of several the first is dropped. -/
def Gap.fold (g : Gap) : List Char :=
  match g.first with
  | none => g.blanks
  | some ['\n'] => if g.more.isEmpty then [' '] else g.more
  | some first => first ++ g.more

/-- Passes blanks and breaks. A tab may not indent a line to the left of `indent`. -/
def readGap (indent : Int) : Nat → Gap → Cursor → Option (Gap × Cursor)
  | 0, g, c => some (g, c)
  | fuel + 1, g, c =>
    match c.peek with
    | none => some (g, c)
    | some x =>
      if isBlank x then
        if g.breaks then
          if x = '\t' && (c.column : Int) < indent then none else readGap indent fuel g c.skip
        else readGap indent fuel { g with blanks := g.blanks ++ [x] } c.skip
      else if isBreak x then
        let (b, c) := c.readBreak
        if g.breaks then readGap indent fuel { g with more := g.more ++ b } c
        else readGap indent fuel { g with blanks := [], first := some b } c
      else some (g, c)

def isFlowIndicator (x : Char) : Bool := x = ',' || x = '[' || x = ']' || x = '\x7b' || x = '\x7d'

/-- The characters of one word of a plain scalar. It ends at a blank, at a colon before a blank and, inside brackets, at
an indicator; a colon right before an indicator is not allowed there. -/
def plainWord (flow : Bool) : Nat → List Char → Cursor → Option (List Char × Cursor)
  | 0, _, _ => none
  | fuel + 1, word, c =>
    match c.peek with
    | none => some (word.reverse, c)
    | some x =>
      if isBlank x || isBreak x then some (word.reverse, c)
      else if flow && x = ':' && (c.peekAt 1).any (fun y => isFlowIndicator y || y = '?') then none
      else if (x = ':' && c.endsAt 1) || (flow && isFlowIndicator x) then some (word.reverse, c)
      else plainWord flow fuel (x :: word) c.skip

/-- Words and the gaps between them, `text` being those so far from their end on and `gap` the one before the next word.
The answer says whether the scalar ended behind a line break. -/
def plainRest (flow : Bool) (indent : Int) : Nat → List Char → Gap → Cursor → Option (List Char × Bool × Cursor)
  | 0, _, _, _ => none
  | fuel + 1, text, gap, c =>
    if c.atDocumentMarker || c.isAt '#' then some (text.reverse, gap.breaks, c)
    else do
      let (word, c) ← plainWord flow c.room [] c
      let (text, gap) := if word.isEmpty then (text, gap) else (word.reverse ++ gap.fold.reverse ++ text, {})
      if !(c.satisfies fun x => isBlank x || isBreak x) then some (text.reverse, gap.breaks, c)
      else do
        let (gap, c) ← readGap indent c.room gap c
        if !flow && (c.column : Int) < indent then some (text.reverse, gap.breaks, c)
        else plainRest flow indent fuel text gap c

/-- A plain scalar; inside block collections its lines are indented by `indent` at least. -/
def plain? (flow : Bool) (indent : Int) (c : Cursor) : Option (List Char × Bool × Cursor) :=
  plainRest flow indent c.room [] {} c

/-- The characters that an escape of one letter stands for. -/
def escaped? (x : Char) : Option Char :=
  if x = '0' then some '\x00' else if x = 'a' then some '\x07' else if x = 'b' then some '\x08'
  else if x = 't' || x = '\t' then some '\t' else if x = 'n' then some '\n' else if x = 'v' then some '\x0b'
  else if x = 'f' then some '\x0c' else if x = 'r' then some '\r' else if x = 'e' then some '\x1b'
  else if x = ' ' then some ' ' else if x = '"' then some '"' else if x = '/' then some '/'
  else if x = '\\' then some '\\' else if x = 'N' then some '\x85' else if x = '_' then some '\xa0'
  else if x = 'L' then some '\u2028' else if x = 'P' then some '\u2029' else none

/-- The number of hexadecimal digits behind an escape for a code point. -/
def escapeWidth? (x : Char) : Option Nat :=
  if x = 'x' then some 2 else if x = 'u' then some 4 else if x = 'U' then some 8 else none

def hexValue? (x : Char) : Option Nat :=
  if x.isDigit then some (x.toNat - '0'.toNat)
  else if 'a' ≤ x && x ≤ 'f' then some (x.toNat - 'a'.toNat + 10)
  else if 'A' ≤ x && x ≤ 'F' then some (x.toNat - 'A'.toNat + 10)
  else none

def hexNumber? (ds : List Char) : Option Nat := ds.foldlM (fun n d => (hexValue? d).map (n * 16 + ·)) 0

/-- The character with that code point, if it is one. -/
def charOf? (n : Nat) : Option Char := if h : n.isValidChar then some (Char.ofNatAux n h) else none

/-- The character of an escape, behind the backslash. -/
def escape? (c : Cursor) : Option (Char × Cursor) :=
  c.peek.bind fun x =>
    match escapeWidth? x with
    | some width =>
      let ds := (c.rest.drop 1).take width
      if ds.length < width then none
      else ((hexNumber? ds).bind charOf?).map fun y => (y, c.skipMany (width + 1))
    | none => (escaped? x).map fun y => (y, c.skip)

/-- The characters of one word of a quoted scalar, up to a blank, a line break, the closing quote or the end. The gap is
not empty if the word ends at a line break that a backslash takes away. -/
def quotedWord (quote : Char) : Nat → List Char → Cursor → Option (List Char × Gap × Cursor)
  | 0, _, _ => none
  | fuel + 1, word, c =>
    match c.peek with
    | none => some (word.reverse, {}, c)
    | some x =>
      if isBlank x || isBreak x then some (word.reverse, {}, c)
      else if x = quote then
        if quote = '\'' && c.peekAt 1 = some '\'' then quotedWord quote fuel (x :: word) (c.skipMany 2)
        else some (word.reverse, {}, c)
      else if quote = '"' && x = '\\' then
        if (c.peekAt 1).any isBreak then some (word.reverse, { first := some [] }, c.skip.skipBreak)
        else do
          let (y, c) ← escape? c.skip
          quotedWord quote fuel (y :: word) c
      else quotedWord quote fuel (x :: word) c.skip

/-- Words and gaps up to the closing quote, `text` being those so far from their end on. A line that looks like the start
or the end of a document is not allowed, and the text may not end before the quote. -/
def quotedRest (quote : Char) : Nat → List Char → Cursor → Option (List Char × Cursor)
  | 0, _, _ => none
  | fuel + 1, text, c =>
    if c.atDocumentMarker || c.atEnd then none
    else do
      let (word, gap, c) ← quotedWord quote c.room [] c
      let text := word.reverse ++ text
      if c.isAt quote then some (text.reverse, c.skip)
      else do
        let (gap, c) ← readGap 0 c.room gap c
        quotedRest quote fuel (gap.fold.reverse ++ text) c

/-- A quoted scalar, from its opening quote on. -/
def quoted? (quote : Char) (c : Cursor) : Option (List Char × Cursor) :=
  quotedRest quote c.room [] c.skip

end ResponseCache.Yaml
