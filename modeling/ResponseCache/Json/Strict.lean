import ResponseCache.Json.Basic
/-!
Documents that can be held in memory before it is known what they are: strings are text, numbers lie in the range of
double-precision floating point, and arrays and objects nest less than 128 deep.
-/
namespace ResponseCache.Json

/-- Puts digits behind a number as long as it fits 64 bits; gives how many are left. -/
def significand : Nat → List Char → Nat × Nat
  | n, [] => (n, 0)
  | n, d :: ds =>
    let next := n * 10 + (d.toNat - '0'.toNat)
    if next < UInt64.size then significand next ds else (n, (d :: ds).length)

/-- The nearest number with no more than 53 binary digits before its zeros at the end; of two the one that ends in a
binary zero. -/
def nearest (n : Nat) : Nat :=
  let unit := Nat.pow 2 (Nat.log2 n - 52)
  let low := n / unit
  let rest := n % unit
  (if unit < 2 * rest || (unit = 2 * rest && low % 2 = 1) then low + 1 else low) * unit

/-- A number that overflows to infinity cannot be held. It is the product of a significand and a power of ten, all three
held to 53 binary digits. Digits that the significand has no room for only shift it, and behind the point are lost. -/
def inRange (lexeme : List Char) : Bool :=
  let mantissa := lexeme.takeWhile fun c => c ≠ 'e' && c ≠ 'E'
  let exponent := lexeme.drop (mantissa.length + 1)
  let power := Nat.ofDigitChars 10 (exponent.filter Char.isDigit) 0
  let whole := (mantissa.filter (· ≠ '-')).takeWhile Char.isDigit
  let fraction := (mantissa.dropWhile (· ≠ '.')).filter Char.isDigit
  let (n, shifted) := significand 0 whole
  let (n, lost) := significand n fraction
  let e : Int := (if exponent.head? = some '-' then -(power : Int) else power) + shifted + lost - fraction.length
  n = 0 || e < 0 || (e ≤ 308 && nearest (nearest n * nearest (Nat.pow 10 e.toNat)) < Nat.pow 2 1024)

mutual

/-- Whether the document can be held, with `depth` levels of nesting to go. -/
def strict (depth : Nat) : Json → Bool
  | null => true
  | bool _ => true
  | number lexeme => inRange lexeme
  | string text => text.isSome
  | array items => match depth with
    | 0 => false
    | depth + 1 => strictItems depth items
  | object members => match depth with
    | 0 => false
    | depth + 1 => strictMembers depth members

def strictItems (depth : Nat) : List Json → Bool
  | [] => true
  | item :: items => strict depth item && strictItems depth items

def strictMembers (depth : Nat) : List (Option String × Json) → Bool
  | [] => true
  | (name, value) :: members => name.isSome && strict depth value && strictMembers depth members

end
end ResponseCache.Json
