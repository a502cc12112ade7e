import ResponseCache.Yaml.Scalar

namespace ResponseCache.Yaml

/-- What becomes of the line breaks at the end of a block. -/
inductive Chomping
  | strip | clip | keep
  deriving DecidableEq, Repr

def chompingOf? (x : Char) : Option Chomping :=
  if x = '+' then some .keep else if x = '-' then some .strip else none

structure BlockHeader where
  chomping : Chomping := .clip
  /-- The indentation beyond that of the parent, if it is given. -/
  increment : Option Nat := none

/-- A digit other than zero gives the indentation. -/
def readIncrement? (h : BlockHeader) (c : Cursor) : Option (BlockHeader × Cursor) :=
  match c.peek with
  | some x =>
    if x = '0' then none
    else if x.isDigit then some ({ h with increment := some (x.toNat - '0'.toNat) }, c.skip)
    else some (h, c)
  | none => some (h, c)

def readChomping (h : BlockHeader) (c : Cursor) : BlockHeader × Cursor :=
  match c.peek.bind chompingOf? with
  | some chomping => ({ h with chomping }, c.skip)
  | none => (h, c)

/-- The rest of the line behind the indicator of a block: its two settings in either order, then at most a comment. -/
def blockHeader? (c : Cursor) : Option (BlockHeader × Cursor) := do
  let (h, c) ← if c.satisfies fun x => (chompingOf? x).isSome then
      let (h, c) := readChomping {} c
      readIncrement? h c
    else (readIncrement? {} c).map fun (h, c) => if h.increment.isSome then readChomping h c else (h, c)
  let c := c.skipBlanks
  let c := if c.isAt '#' then c.skipLineRest else c
  if c.atEnd || c.satisfies isBreak then some (h, c.skipBreak) else none

/-- Passes indentation and empty lines. With no `indent` given yet, all leading spaces count, and the widest run of them
is answered as well. A tab may not stand where indentation is expected. -/
def readMargin (indent : Option Nat) : Nat → Nat → List Char → Cursor → Option (Nat × List Char × Cursor)
  | 0, _, _, _ => none
  | fuel + 1, widest, breaks, c =>
    let c := match indent with
      | none => c.skipWhile (· = ' ')
      | some n => c.skipMany ((c.rest.take (n - c.column)).takeWhile (· = ' ')).length
    let widest := max widest c.column
    if (indent.all fun n => c.column < n) && c.isAt '\t' then none
    else if c.satisfies isBreak then
      let (b, c) := c.readBreak
      readMargin indent fuel widest (breaks ++ b) c
    else some (widest, breaks, c)

/-- What the lines read so far leave for the next one. -/
structure BlockState where
  /-- The text so far, from its end on. -/
  text : List Char := []
  /-- The break that ended the last line. -/
  leading : List Char := []
  /-- The breaks of the empty lines behind it. -/
  trailing : List Char := []
  /-- The last line started with a blank, which keeps the breaks around it. -/
  startsBlank : Bool := false

/-- What the breaks before a next line count for. -/
def BlockState.gap (s : BlockState) (folded nextBlank : Bool) : List Char :=
  if folded && s.leading.head? = some '\n' && !s.startsBlank && !nextBlank then
    if s.trailing.isEmpty then [' '] else s.trailing
  else s.leading ++ s.trailing

/-- Lines as long as they start at the margin. -/
def blockLines (folded : Bool) (indent : Nat) : Nat → BlockState → Cursor → Option (BlockState × Cursor)
  | 0, _, _ => none
  | fuel + 1, s, c =>
    if c.column != indent || c.atEnd then some (s, c)
    else do
      let startsBlank := c.satisfies isBlank
      let (line, c) := c.readWhile (!isBreak ·)
      let text := line.reverse ++ (s.gap folded startsBlank).reverse ++ s.text
      let (leading, c) := c.readBreak
      let (_, trailing, c) ← readMargin (some indent) c.room 0 [] c
      blockLines folded indent fuel { text, leading, trailing, startsBlank } c

/-- The whole text, with what is left of the breaks at its end. -/
def BlockState.chomped (s : BlockState) : Chomping → List Char
  | .strip => s.text.reverse
  | .clip => s.text.reverse ++ s.leading
  | .keep => s.text.reverse ++ s.leading ++ s.trailing

/-- A block scalar from its indicator on, inside a collection indented by `parent` (−1 outside of all). -/
def block? (folded : Bool) (parent : Int) (c : Cursor) : Option (List Char × Cursor) := do
  let (h, c) ← blockHeader? c.skip
  let given := h.increment.map fun n => (max parent 0).toNat + n
  let (widest, trailing, c) ← readMargin given c.room 0 [] c
  let indent := given.getD (max widest (max (parent + 1) 1).toNat)
  let (s, c) ← blockLines folded indent c.room { trailing } c
  some (s.chomped h.chomping, c)

end ResponseCache.Yaml
