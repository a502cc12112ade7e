namespace ResponseCache

/-- The content of a stream, of a body, of a file. -/
abbrev Bytes := List UInt8

namespace Text

def toBytes (s : String) : Bytes := s.toUTF8.toList

/-- What a first byte promises: how many bytes follow, and the range of the next one. -/
def promise (b : UInt8) : Option (Nat × UInt8 × UInt8) :=
  if 0xc2 ≤ b && b ≤ 0xdf then some (1, 0x80, 0xbf)
  else if b = 0xe0 then some (2, 0xa0, 0xbf)
  else if b = 0xed then some (2, 0x80, 0x9f)
  else if 0xe1 ≤ b && b ≤ 0xef then some (2, 0x80, 0xbf)
  else if b = 0xf0 then some (3, 0x90, 0xbf)
  else if 0xf1 ≤ b && b ≤ 0xf3 then some (3, 0x80, 0xbf)
  else if b = 0xf4 then some (3, 0x80, 0x8f)
  else none

/-- Reads bytes from left to right. Where no character can be read, the longest run of bytes that could have started one
stands for a single replacement character. `owed` bytes of the character with the leading bits `code` are still to come, the
next one between `lo` and `hi`. -/
def decodeFrom (owed : Nat) (lo hi : UInt8) (code : Nat) : Bytes → List Char
  | [] => if owed = 0 then [] else ['\ufffd']
  | b :: rest =>
    let fresh : List Char :=
      if b < 0x80 then Char.ofNat b.toNat :: decodeFrom 0 0 0 0 rest
      else match promise b with
        | some (n, lo', hi') => decodeFrom n lo' hi' (b.toNat % Nat.pow 2 (6 - n)) rest
        | none => '\ufffd' :: decodeFrom 0 0 0 0 rest
    match owed with
    | 0 => fresh
    | n + 1 =>
      if lo ≤ b && b ≤ hi then
        let code := code * 64 + b.toNat % 64
        if n = 0 then Char.ofNat code :: decodeFrom 0 0 0 0 rest else decodeFrom n 0x80 0xbf code rest
      else '\ufffd' :: fresh

/-- The text that bytes stand for, with replacement characters where they stand for none. -/
def ofBytes (bytes : Bytes) : String := String.ofList (decodeFrom 0 0 0 0 bytes)

/-- The text that bytes stand for, if they are well-formed. -/
def ofBytes? (bytes : Bytes) : Option String := String.fromUTF8? ⟨bytes.toArray⟩

/-- The characters with the property White_Space. -/
def isBlank (c : Char) : Bool :=
  let n := c.toNat
  (0x9 ≤ n && n ≤ 0xd) || n = 0x20 || n = 0x85 || n = 0xa0 || n = 0x1680 || (0x2000 ≤ n && n ≤ 0x200a) ||
    n = 0x2028 || n = 0x2029 || n = 0x202f || n = 0x205f || n = 0x3000

/-- The text without the white space that it starts with. -/
def trimStart (cs : List Char) : List Char := cs.dropWhile isBlank

/-- The number that a run of decimal digits stands for. -/
def ofDigits (ds : List Char) : Nat := Nat.ofDigitChars 10 ds 0

/-- Between one and `most` decimal digits at the front, as a number, and the text behind them. -/
def takeNumber (most : Nat) (cs : List Char) : Option (Nat × List Char) :=
  let ds := (cs.take most).takeWhile Char.isDigit
  if ds.isEmpty then none else some (ofDigits ds, cs.drop ds.length)

/-- The decimal digits of `n`, with zeros in front up to the width. -/
def padded (width n : Nat) : List Char :=
  let ds := Nat.toDigits 10 n
  List.replicate (width - ds.length) '0' ++ ds

/-- The digits without the zeros that they end in. -/
def trimZeros (ds : List Char) : List Char := (ds.reverse.dropWhile (· = '0')).reverse

end Text
end ResponseCache
