import ResponseCache.Text
/-!
The shortest decimal that reads back as a given binary floating-point number, found by trying one digit, two digits
and so on, and its positional text. All arithmetic is on natural numbers.
-/
namespace ResponseCache.Decimal

/-- A fraction of two natural numbers. -/
structure Ratio where
  num : Nat
  den : Nat

def Ratio.le (a b : Ratio) : Bool := a.num * b.den ≤ b.num * a.den

def Ratio.lt (a b : Ratio) : Bool := a.num * b.den < b.num * a.den

/-- `n` times a power of `base`. -/
def scaled (base n : Nat) (e : Int) : Ratio := if 0 ≤ e then ⟨n * Nat.pow base e.toNat, 1⟩ else ⟨n, Nat.pow base e.natAbs⟩

/-- A finite binary number `m * 2 ^ q` that is not negative. `narrow` says that its lower neighbour is only half as far
away as its upper one. -/
structure Binary where
  m : Nat
  q : Int
  narrow : Bool

/-- The magnitude of a floating-point number; its sign is left out. -/
def Binary.ofFloat (f : Float) : Binary :=
  let bits : Nat := f.toBits.toNat
  let exponent : Nat := bits / Nat.pow 2 52 % Nat.pow 2 11
  let fraction : Nat := bits % Nat.pow 2 52
  if exponent = 0 then ⟨fraction, -1074, false⟩
  else ⟨Nat.pow 2 52 + fraction, (exponent : Int) - 1075, fraction = 0 && 1 < exponent⟩

/-- The halfway points to the two neighbours. They belong to the number itself when `m` is even. -/
def Binary.lower (b : Binary) : Ratio := scaled 2 (4 * b.m - (if b.narrow then 1 else 2)) (b.q - 2)
def Binary.upper (b : Binary) : Ratio := scaled 2 (4 * b.m + 2) (b.q - 2)

/-- Whether a decimal `c * 10 ^ e` reads back as this number. -/
def Binary.readsBack (b : Binary) (c : Nat) (e : Int) : Bool :=
  let d := scaled 10 c e
  if b.m % 2 = 0 then b.lower.le d && d.le b.upper else b.lower.lt d && d.lt b.upper

/-- How many places the point has to move to the right until a fraction below one is one or more. -/
def shift (den : Nat) : Nat → Nat → Nat
  | 0, _ => 0
  | fuel + 1, num => if den ≤ num then 0 else shift den fuel (num * 10) + 1

/-- The `e` with `10 ^ (e - 1) ≤ r < 10 ^ e`, for positive `r`. -/
def magnitude (r : Ratio) : Int :=
  if r.den ≤ r.num then (Nat.toDigits 10 (r.num / r.den)).length else 1 - (shift r.den 400 r.num : Nat)

/-- Tries `n` digits, then one more, as long as `more` lasts. Of two decimals that read back the
nearer is taken, and of two that are equally near the greater. -/
def Binary.search (b : Binary) (v : Ratio) (top : Int) : Nat → Nat → Nat × Int
  | 0, _ => (0, 0)
  | more + 1, n =>
    let e := top - (n : Int)
    let grid := scaled 10 1 e
    let c := v.num * grid.den / (v.den * grid.num)
    let rest := v.num * grid.den % (v.den * grid.num)
    match b.readsBack c e, b.readsBack (c + 1) e with
    | true, true => (if 2 * rest < v.den * grid.num then c else c + 1, e)
    | true, false => (c, e)
    | false, true => (c + 1, e)
    | false, false => b.search v top more (n + 1)

/-- The shortest decimal `c * 10 ^ e` that reads back. -/
def Binary.shortest (b : Binary) : Nat × Int :=
  let v := scaled 2 b.m b.q
  if b.m = 0 then (0, 0) else b.search v (magnitude v) 17 1

/-- A decimal in positional notation: no exponent, no point in a whole number, and a zero in front of a bare point. -/
def positional (c : Nat) (e : Int) : List Char :=
  let ds := Nat.toDigits 10 c
  if 0 ≤ e then (if c = 0 then ds else ds ++ List.replicate e.toNat '0')
  else
    let places := e.natAbs
    let ds := List.replicate (places + 1 - ds.length) '0' ++ ds
    let fraction := Text.trimZeros (ds.drop (ds.length - places))
    let whole := ds.take (ds.length - places)
    if fraction.isEmpty then whole else whole ++ '.' :: fraction

/-- The shortest positional text of a finite floating-point number. -/
def render (f : Float) : String :=
  let (c, e) := (Binary.ofFloat f).shortest
  let text := positional c e
  String.ofList (if f < 0 then '-' :: text else text)

end ResponseCache.Decimal
