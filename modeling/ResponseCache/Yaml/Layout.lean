import ResponseCache.Yaml.BlockScalar
import ResponseCache.Yaml.Token
/-!
From a YAML text to its tokens. Indentation opens and closes block collections, and a colon makes a key of what stands
before it on the same line.
-/
namespace ResponseCache.Yaml

/-- A token that a colon may still turn into a key. -/
structure KeyMark where
  /-- The number of tokens before it. -/
  position : Nat
  offset : Nat
  line : Nat
  column : Nat
  /-- Nothing but a key can stand here, since the token starts a line of a block mapping. -/
  required : Bool

/-- The tokens read so far and what the next ones depend on. -/
structure Layout where
  cursor : Cursor
  tokens : Array Token := #[]
  /-- The column of the innermost open block collection, and those of the collections around it. -/
  indent : Int := -1
  outerIndents : List Int := []
  /-- The possible key in the innermost pair of brackets, and one for each level around it. -/
  key : Option KeyMark := none
  outerKeys : List (Option KeyMark) := []
  /-- A key may start at this place without an indicator. -/
  keyAllowed : Bool := true

namespace Layout

/-- The place lies within brackets. -/
def flow (l : Layout) : Bool := !l.outerKeys.isEmpty

def push (l : Layout) (t : Token) : Layout := { l with tokens := l.tokens.push t }

/-- Key marks reach to the end of their line and 1024 bytes far. A required key that gets lost is an error. -/
def freshKey? (c : Cursor) : Option KeyMark → Option (Option KeyMark)
  | some k =>
    if k.line < c.line || k.offset + 1024 < c.offset then if k.required then none else some none else some (some k)
  | none => some none

def dropStaleKeys? (l : Layout) : Option Layout := do
  some { l with key := ← freshKey? l.cursor l.key, outerKeys := ← l.outerKeys.mapM (freshKey? l.cursor) }

/-- Gives up the possible key of this level. -/
def dropKey? (l : Layout) : Option Layout :=
  if l.key.any (·.required) then none else some { l with key := none }

/-- Marks the next token as a possible key, if a key may start here. -/
def markKey? (l : Layout) : Option Layout :=
  if l.keyAllowed then
    l.dropKey?.map fun l =>
      let c := l.cursor
      let required := !l.flow && l.indent = c.column
      { l with key := some ⟨l.tokens.size, c.offset, c.line, c.column, required⟩ }
  else some l

/-- Opens a block collection at `column`, with its token at `position`, if the column lies deeper than the open ones. -/
def openBlock (l : Layout) (column position : Nat) (t : Token) : Layout :=
  if !l.flow && l.indent < column then
    { l with
      tokens := l.tokens.insertIdxIfInBounds position t
      indent := column
      outerIndents := l.indent :: l.outerIndents }
  else l

/-- Closes block collections, innermost first, as long as they lie deeper than `column`. -/
def closeDeeper (column : Int) : List Int → Array Token → Int → Int × List Int × Array Token
  | [], tokens, indent => (indent, [], tokens)
  | outer :: rest, tokens, indent =>
    if indent > column then closeDeeper column rest (tokens.push .blockEnd) outer else (indent, outer :: rest, tokens)

def closeBlocks (l : Layout) (column : Int) : Layout :=
  if l.flow then l
  else
    let (indent, outerIndents, tokens) := closeDeeper column l.outerIndents l.tokens l.indent
    { l with indent, outerIndents, tokens }

/-- Passes blanks, comments and line breaks. A byte order mark may start each line. A tab is a blank where no key may
start and inside brackets. Outside brackets a key may start on each new line. -/
def skipGaps : Nat → Layout → Layout
  | 0, l => l
  | fuel + 1, l =>
    let tabs := l.flow || !l.keyAllowed
    let c := if l.cursor.column = 0 && l.cursor.isAt '\ufeff' then l.cursor.skip else l.cursor
    let c := c.skipWhile fun x => x = ' ' || (tabs && x = '\t')
    let c := if c.isAt '#' then c.skipLineRest else c
    if c.satisfies isBreak then skipGaps fuel { l with cursor := c.skipBreak, keyAllowed := l.keyAllowed || !l.flow }
    else { l with cursor := c }

/-- A token of `n` characters. -/
def take (l : Layout) (n : Nat) (t : Token) : Layout := { l.push t with cursor := l.cursor.skipMany n }

def openFlow? (l : Layout) (t : Token) : Option Layout :=
  l.markKey?.map fun l => { l with key := none, outerKeys := l.key :: l.outerKeys, keyAllowed := true }.take 1 t

def closeFlow? (l : Layout) (t : Token) : Option Layout :=
  l.dropKey?.map fun l =>
    { l with key := l.outerKeys.headD l.key, outerKeys := l.outerKeys.tail, keyAllowed := false }.take 1 t

def comma? (l : Layout) : Option Layout := l.dropKey?.map fun l => { l with keyAllowed := true }.take 1 .comma

/-- A hyphen opens a block sequence, or starts the next entry of one. -/
def entry? (l : Layout) : Option Layout :=
  if !l.flow && !l.keyAllowed then none
  else
    (l.openBlock l.cursor.column l.tokens.size .blockSequence).dropKey?.map fun l =>
      { l with keyAllowed := true }.take 1 .entry

/-- A question mark before a key. -/
def explicitKey? (l : Layout) : Option Layout :=
  if !l.flow && !l.keyAllowed then none
  else
    (l.openBlock l.cursor.column l.tokens.size .blockMapping).dropKey?.map fun l =>
      { l with keyAllowed := !l.flow }.take 1 .key

/-- A colon turns the possible key of its level into a key, and opens a block mapping at that key if need be. -/
def value? (l : Layout) : Option Layout :=
  match l.key with
  | some k =>
    let l := { l with tokens := l.tokens.insertIdxIfInBounds k.position .key }
    let l := l.openBlock k.column k.position .blockMapping
    some ({ l with key := none, keyAllowed := false }.take 1 .value)
  | none =>
    if !l.flow && !l.keyAllowed then none
    else
      let l := l.openBlock l.cursor.column l.tokens.size .blockMapping
      some ({ l with keyAllowed := !l.flow }.take 1 .value)

/-- A token that may be a key, and behind which none can start. -/
def keyToken? (l : Layout) (read : Cursor → Option (Token × Cursor)) : Option Layout := do
  let l ← l.markKey?
  let (t, c) ← read l.cursor
  some { l.push t with cursor := c, keyAllowed := false }

def blockScalar? (l : Layout) (folded : Bool) : Option Layout := do
  let l ← l.dropKey?
  let (text, c) ← block? folded l.indent l.cursor
  let t := Token.scalar (if folded then .folded else .literal) (String.ofList text)
  some { l.push t with cursor := c, keyAllowed := true }

def quotedScalar? (l : Layout) (style : Style) (quote : Char) : Option Layout :=
  l.keyToken? fun c => (quoted? quote c).map fun (text, c) => (.scalar style (String.ofList text), c)

/-- A plain scalar. Behind one that ends with a line break a key may start. -/
def plainScalar? (l : Layout) : Option Layout := do
  let l ← l.markKey?
  let (text, broken, c) ← plain? l.flow (l.indent + 1) l.cursor
  some { l.push (.scalar .plain (String.ofList text)) with cursor := c, keyAllowed := broken }

/-- A directive or a line between documents; all open blocks end before it. -/
def topLevel? (l : Layout) (read : Cursor → Option (Token × Cursor)) : Option Layout := do
  let l ← (l.closeBlocks (-1)).dropKey?
  let (t, c) ← read l.cursor
  some { l.push t with cursor := c, keyAllowed := false }

/-- Characters that start no plain scalar, or only with something else than a blank behind them. -/
def isIndicator (x : Char) : Bool := "-?:,[]\x7b\x7d#&*!|>'\"%@\x60".contains x

def startsPlain (l : Layout) : Bool :=
  let c := l.cursor
  c.satisfies fun x =>
    !(isBlank x || isBreak x || isIndicator x) || (x = '-' && !(c.peekAt 1).any isBlank) ||
      (!l.flow && (x = '?' || x = ':') && !c.endsAt 1)

/-- The next token, at a place where one starts. -/
def token? (l : Layout) (x : Char) : Option Layout :=
  let c := l.cursor
  let indicates := l.flow || c.endsAt 1
  if c.column = 0 && x = '%' then l.topLevel? fun c => directive? c.skip
  else if c.atMarker '-' then l.topLevel? fun c => some (.documentStart, c.skipMany 3)
  else if c.atMarker '.' then l.topLevel? fun c => some (.documentEnd, c.skipMany 3)
  else if x = '[' then l.openFlow? .openBracket
  else if x = '\x7b' then l.openFlow? .openBrace
  else if x = ']' then l.closeFlow? .closeBracket
  else if x = '\x7d' then l.closeFlow? .closeBrace
  else if x = ',' then l.comma?
  else if x = '-' && c.endsAt 1 then l.entry?
  else if x = '?' && indicates then l.explicitKey?
  else if x = ':' && indicates then l.value?
  else if x = '*' then l.keyToken? fun c => (name? c.skip).map fun (name, c) => (.alias name, c)
  else if x = '&' then l.keyToken? fun c => (name? c.skip).map fun (name, c) => (.anchor name, c)
  else if x = '!' then l.keyToken? (tag? l.flow)
  else if x = '|' && !l.flow then l.blockScalar? false
  else if x = '>' && !l.flow then l.blockScalar? true
  else if x = '\'' then l.quotedScalar? .singleQuoted '\''
  else if x = '"' then l.quotedScalar? .doubleQuoted '"'
  else if l.startsPlain then l.plainScalar?
  else none

/-- All tokens up to the end of the text, where all blocks end. -/
def run : Nat → Layout → Option (List Token)
  | 0, _ => none
  | fuel + 1, l => do
    let l ← (skipGaps l.cursor.room l).dropStaleKeys?
    let l := l.closeBlocks l.cursor.column
    match l.cursor.peek with
    | none => (l.closeBlocks (-1)).dropKey?.map (·.tokens.toList)
    | some x => run fuel (← l.token? x)

end Layout

/-- The tokens of a text, if it is made of allowed characters and the layout is sound. -/
def tokens? (text : String) : Option (List Token) :=
  let c := Cursor.start text.toList
  if c.rest.all isAllowed then Layout.run c.room { cursor := c } else none

end ResponseCache.Yaml
