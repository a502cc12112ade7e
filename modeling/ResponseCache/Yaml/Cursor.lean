namespace ResponseCache.Yaml

/-- Characters that a text may hold: no controls apart from tabs and line breaks, and no surrogates or non-characters. -/
def isAllowed (c : Char) : Bool :=
  let n := c.toNat
  n = 0x9 || n = 0xa || n = 0xd || (0x20 ≤ n && n ≤ 0x7e) || n = 0x85 || (0xa0 ≤ n && n ≤ 0xd7ff) ||
    (0xe000 ≤ n && n ≤ 0xfffd) || 0x10000 ≤ n

def isBreak (c : Char) : Bool := c = '\n' || c = '\r' || c = '\x85' || c = '\u2028' || c = '\u2029'

def isBlank (c : Char) : Bool := c = ' ' || c = '\t'

/-- Letters, digits, the hyphen and the underscore. -/
def isWordChar (c : Char) : Bool := c.isAlphanum || c = '-' || c = '_'

/-- A place in a text: what lies ahead, and where it is. -/
structure Cursor where
  rest : List Char
  /-- The number of bytes of the whole text. -/
  size : Nat
  /-- The number of bytes before the place. -/
  offset : Nat := 0
  line : Nat := 0
  column : Nat := 0
  deriving Repr

namespace Cursor

/-- The number of bytes that characters take. -/
def width (cs : List Char) : Nat := cs.foldl (fun n x => n + x.utf8Size) 0

/-- The start of a text. -/
def start (cs : List Char) : Cursor := { rest := cs, size := width cs }

/-- More than the number of characters ahead, since each of them takes a byte at least. -/
def room (c : Cursor) : Nat := c.size - c.offset + 1

def peek (c : Cursor) : Option Char := c.rest.head?

/-- The character `n` places ahead. -/
def peekAt (c : Cursor) (n : Nat) : Option Char := c.rest[n]?

def atEnd (c : Cursor) : Bool := c.rest.isEmpty

def isAt (c : Cursor) (x : Char) : Bool := c.peek = some x

def satisfies (c : Cursor) (p : Char → Bool) : Bool := c.peek.any p

/-- A blank, a line break or the end lies `n` places ahead. -/
def endsAt (c : Cursor) (n : Nat) : Bool := (c.peekAt n).all fun x => isBlank x || isBreak x

/-- Passes `n` characters, none of them a line break. -/
def skipMany (c : Cursor) (n : Nat) : Cursor :=
  { c with rest := c.rest.drop n, offset := c.offset + width (c.rest.take n), column := c.column + n }

/-- Passes one character that is no line break. -/
def skip (c : Cursor) : Cursor := c.skipMany 1

/-- Passes a line break, if there is one, and gives what it counts for: a separator of lines or paragraphs counts for
itself, any other break for a line feed. -/
def readBreak (c : Cursor) : List Char × Cursor :=
  match c.rest with
  | '\r' :: '\n' :: rest => (['\n'], { c with rest, offset := c.offset + 2, line := c.line + 1, column := 0 })
  | x :: rest =>
    if isBreak x then
      let broken := if x = '\u2028' || x = '\u2029' then x else '\n'
      ([broken], { c with rest, offset := c.offset + x.utf8Size, line := c.line + 1, column := 0 })
    else ([], c)
  | [] => ([], c)

def skipBreak (c : Cursor) : Cursor := c.readBreak.2

/-- Passes the characters at the front that satisfy `p`, none of them a line break, and gives them. -/
def readWhile (c : Cursor) (p : Char → Bool) : List Char × Cursor :=
  let run := c.rest.takeWhile p
  (run, c.skipMany run.length)

def skipWhile (c : Cursor) (p : Char → Bool) : Cursor := (c.readWhile p).2

def skipBlanks (c : Cursor) : Cursor := c.skipWhile isBlank

/-- Passes everything up to the end of the line. -/
def skipLineRest (c : Cursor) : Cursor := c.skipWhile (!isBreak ·)

/-- Three characters at the start of a line that mark the start or the end of a document. -/
def atMarker (c : Cursor) (x : Char) : Bool := c.column = 0 && c.rest.take 3 = [x, x, x] && c.endsAt 3

def atDocumentMarker (c : Cursor) : Bool := c.atMarker '-' || c.atMarker '.'

end Cursor
end ResponseCache.Yaml
