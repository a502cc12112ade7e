import ResponseCache.Text
/-!
Spans of time, and moments of the civil calendar: the proleptic Gregorian calendar in universal time, to the nanosecond. A
leap second is the second before it with a thousand million nanoseconds or more. The text form is the profile of ISO 8601 that
the internet uses; reading is lenient about white space, about the number of digits and about the offset from universal time,
writing is not.
-/
namespace ResponseCache

/-- A length of time. -/
structure Span where
  nanos : Nat
  deriving DecidableEq, Repr

namespace Span

def ofMicros (n : Nat) : Span := ⟨n * 1000⟩
def ofMillis (n : Nat) : Span := ⟨n * 1000000⟩

/-- Whole microseconds, the rest cut off. -/
def micros (s : Span) : Nat := s.nanos / 1000

/-- Whole seconds, and the nanoseconds beside them. -/
def seconds (s : Span) : Nat := s.nanos / 1000000000
def subsecond (s : Span) : Nat := s.nanos % 1000000000

/-- `n` in units of `10 ^ places`, with as many decimal places as it takes and no more. -/
def inUnits (places n : Nat) : String :=
  let fraction := Text.trimZeros (Text.padded places (n % Nat.pow 10 places))
  let whole := Nat.toDigits 10 (n / Nat.pow 10 places)
  String.ofList (if fraction.isEmpty then whole else whole ++ '.' :: fraction)

/-- The span in the largest of the units s, ms, µs and ns of which it holds at least one. -/
def describe (s : Span) : String :=
  if 1000000000 ≤ s.nanos then inUnits 9 s.nanos ++ "s"
  else if 1000000 ≤ s.nanos then inUnits 6 s.nanos ++ "ms"
  else if 1000 ≤ s.nanos then inUnits 3 s.nanos ++ "µs"
  else inUnits 0 s.nanos ++ "ns"

end Span

/-- Seconds since the start of 1970, and nanoseconds into that second. -/
structure Timestamp where
  seconds : Int
  nanos : Nat
  deriving DecidableEq, Repr

namespace Timestamp

/-- The number of a day, counted from the first of January 1970. -/
def dayNumber (year : Int) (month day : Nat) : Int :=
  let year := if month ≤ 2 then year - 1 else year
  let era := year / 400
  let ofEra := year % 400
  let dayOfYear : Int := (153 * ((month + 9) % 12) + 2) / 5 + day - 1
  era * 146097 + ofEra * 365 + ofEra / 4 - ofEra / 100 + dayOfYear - 719468

/-- The year, the month and the day with that number. -/
def civil (number : Int) : Int × Nat × Nat :=
  let z := number + 719468
  let era := z / 146097
  let ofEra := z % 146097
  let yearOfEra := (ofEra - ofEra / 1460 + ofEra / 36524 - ofEra / 146096) / 365
  let dayOfYear := ofEra - (365 * yearOfEra + yearOfEra / 4 - yearOfEra / 100)
  let shifted := (5 * dayOfYear + 2) / 153
  let day := (dayOfYear - (153 * shifted + 2) / 5 + 1).toNat
  let month := if shifted < 10 then (shifted + 3).toNat else (shifted - 9).toNat
  (yearOfEra + era * 400 + (if month ≤ 2 then 1 else 0), month, day)

def isLeapYear (year : Int) : Bool := year % 4 = 0 && (year % 100 ≠ 0 || year % 400 = 0)

def daysIn (year : Int) (month : Nat) : Nat :=
  if month = 2 then (if isLeapYear year then 29 else 28)
  else if month = 4 || month = 6 || month = 9 || month = 11 then 30 else 31

/-- The years for which days are counted. -/
def yearInRange (year : Int) : Bool := -262143 ≤ year && year ≤ 262142

/-- The moment that many nanoseconds after the start of 1970. -/
def ofUnixNanos (n : Nat) : Timestamp := ⟨n / 1000000000, n % 1000000000⟩

/-- Earlier in the second, or in an earlier second. -/
def before (a b : Timestamp) : Bool := a.seconds < b.seconds || (a.seconds = b.seconds && a.nanos < b.nanos)

def yearText (year : Int) : List Char :=
  if 0 ≤ year && year ≤ 9999 then Text.padded 4 year.toNat
  else (if year < 0 then '-' else '+') :: Text.padded 4 year.natAbs

/-- The fraction of the second with three, six or nine digits, the fewest that hold it; none when it is zero. -/
def fractionText (nanos : Nat) : List Char :=
  if nanos = 0 then []
  else if nanos % 1000000 = 0 then '.' :: Text.padded 3 (nanos / 1000000)
  else if nanos % 1000 = 0 then '.' :: Text.padded 6 (nanos / 1000)
  else '.' :: Text.padded 9 nanos

/-- The moment as text; `zone` is how universal time is marked. -/
def render (t : Timestamp) (zone : String) : String :=
  let (year, month, day) := civil (t.seconds / 86400)
  let second := (t.seconds % 86400).toNat
  let leap := t.nanos / 1000000000
  String.ofList (yearText year ++ '-' :: Text.padded 2 month ++ '-' :: Text.padded 2 day ++
    'T' :: Text.padded 2 (second / 3600) ++ ':' :: Text.padded 2 (second / 60 % 60) ++
    ':' :: Text.padded 2 (second % 60 + leap) ++ fractionText (t.nanos % 1000000000) ++ zone.toList)

/-- One given character at the front. -/
def expect (c : Char) : List Char → Option (List Char)
  | [] => none
  | c' :: rest => if c' = c then some rest else none

/-- Blanks and then a number of at most two digits. -/
def twoDigits (cs : List Char) : Option (Nat × List Char) := Text.takeNumber 2 (Text.trimStart cs)

/-- Blanks and then a year: four digits at most, or any number of digits after a sign. -/
def year? (cs : List Char) : Option (Int × List Char) :=
  match Text.trimStart cs with
  | '-' :: rest => (Text.takeNumber rest.length rest).map fun (n, r) => (-(n : Int), r)
  | '+' :: rest => (Text.takeNumber rest.length rest).map fun (n, r) => ((n : Int), r)
  | rest => (Text.takeNumber 4 rest).map fun (n, r) => ((n : Int), r)

/-- The digits of a fraction as nanoseconds; those behind the ninth do not count. -/
def fraction? : List Char → Option (Nat × List Char)
  | '.' :: rest =>
    let ds := rest.takeWhile Char.isDigit
    if ds.isEmpty then none
    else some (Text.ofDigits (ds.take 9) * Nat.pow 10 (9 - ds.length), rest.drop ds.length)
  | rest => some (0, rest)

/-- Hours and minutes of an offset, two digits each, with colons and blanks between them as one likes. -/
def offsetSize? : List Char → Option (Nat × List Char)
  | h₁ :: h₂ :: rest =>
    match rest.dropWhile (fun c => c = ':' || Text.isBlank c) with
    | m₁ :: m₂ :: rest =>
      if h₁.isDigit && h₂.isDigit && m₁.isDigit && m₂.isDigit && m₁ < '6' then
        some (Text.ofDigits [h₁, h₂] * 3600 + Text.ofDigits [m₁, m₂] * 60, rest)
      else none
    | _ => none
  | _ => none

/-- The offset from universal time in seconds. -/
def offset? : List Char → Option (Int × List Char)
  | 'Z' :: rest => some (0, rest)
  | 'z' :: rest => some (0, rest)
  | '+' :: rest => (offsetSize? rest).map fun (n, r) => ((n : Int), r)
  | '-' :: rest => (offsetSize? rest).map fun (n, r) => (-(n : Int), r)
  | '−' :: rest => (offsetSize? rest).map fun (n, r) => (-(n : Int), r)
  | u :: t :: c :: rest =>
    if u.toUpper = 'U' && t.toUpper = 'T' && c.toUpper = 'C' then some (0, rest) else none
  | _ => none

/-- The moment with these parts, if there is such a day and such a time of day. A sixtieth second is a leap second. -/
def ofParts? (year : Int) (month day hour minute second nanos : Nat) (offset : Int) : Option Timestamp :=
  let t : Timestamp :=
    ⟨dayNumber year month day * 86400 + hour * 3600 + minute * 60 + (min second 59 : Nat) - offset,
      nanos + (second - 59) * 1000000000⟩
  if 1 ≤ month && month ≤ 12 && 1 ≤ day && day ≤ daysIn year month && hour ≤ 23 && minute ≤ 59 && second ≤ 60 &&
      yearInRange year && offset.natAbs < 86400 && yearInRange (civil (t.seconds / 86400)).1 then some t
  else none

/-- The moment that a text stands for. -/
def parse? (s : String) : Option Timestamp := do
  let (year, cs) ← year? s.toList
  let cs ← expect '-' (Text.trimStart cs)
  let (month, cs) ← twoDigits cs
  let cs ← expect '-' (Text.trimStart cs)
  let (day, cs) ← twoDigits cs
  let cs ← match cs with
    | c :: rest => if c = 'T' || c = 't' || c = ' ' then some rest else none
    | [] => none
  let (hour, cs) ← twoDigits cs
  let cs ← expect ':' (Text.trimStart cs)
  let (minute, cs) ← twoDigits cs
  let cs ← expect ':' (Text.trimStart cs)
  let (second, cs) ← twoDigits cs
  let (nanos, cs) ← fraction? cs
  let (offset, cs) ← offset? (Text.trimStart cs)
  if (Text.trimStart cs).isEmpty then ofParts? year month day hour minute second nanos offset else none

end Timestamp
end ResponseCache
