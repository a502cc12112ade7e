import ResponseCache.Json.Printer
import ResponseCache.Json.Reader
import ResponseCache.Text
/-!
Cache keys: a request URI and the axes on which its answer varies. A key is kept in normal form: axis names in lower
case, each once, in increasing order. Its hash is computed when it is built and compared first.
-/
namespace ResponseCache

/-- A cache key in normal form. `ofParts` is the only way in which the library builds one. -/
structure Key where
  uri : String
  variance : List (String × String)
  hash : UInt64
  deriving Repr

namespace Key

def hashMultiplier : UInt64 := 0x517cc1b727220a95

/-- One byte more: five bits round, the byte on top, times the multiplier. -/
def hashByte (h : UInt64) (b : UInt8) : UInt64 := (((h <<< 5) ||| (h >>> 59)) ^^^ b.toUInt64) * hashMultiplier

def hashText (seed : UInt64) (s : String) : UInt64 := (Text.toBytes s).foldl hashByte (seed ^^^ hashMultiplier)

/-- The URI first, then every axis and its value, each hash the seed of the next. -/
def digest (uri : String) (variance : List (String × String)) : UInt64 :=
  variance.foldl (fun h (axis, value) => hashText (hashText h axis) value) (hashText 0 uri)

def lowerChar (c : Char) : Char := if 'A' ≤ c && c ≤ 'Z' then Char.ofNat (c.toNat + 32) else c

/-- The ASCII letters in lower case. -/
def lowerCase (s : String) : String := s.map lowerChar

/-- Pairs are ordered by axis and then by value. -/
def pairLe (a b : String × String) : Bool := a.1 < b.1 || (a.1 = b.1 && a.2 ≤ b.2)

/-- Of neighbours with one axis the first stays. -/
def dedup : List (String × String) → List (String × String)
  | [] => []
  | [p] => [p]
  | p :: q :: rest => if p.1 = q.1 then dedup (p :: rest) else p :: dedup (q :: rest)

/-- Lower-case axes in increasing order; of equal axes the smallest value stays. -/
def normalize (variance : List (String × String)) : List (String × String) :=
  dedup ((variance.map fun (axis, value) => (lowerCase axis, value)).mergeSort pairLe)

/-- The key with these axes, whatever their order, case and repetitions. -/
def ofParts (uri : String) (variance : List (String × String)) : Key :=
  let variance := normalize variance
  ⟨uri, variance, digest uri variance⟩

/-- The key of a URI that does not vary. -/
def ofUri (uri : String) : Key := ofParts uri []

/-- Where a search among increasing pairs ends: the range of `size` pairs from `base` is halved until one pair is left. -/
def bisect (axis : String) (pairs : List (String × String)) (base size : Nat) : Nat :=
  if size ≤ 1 then base
  else
    let half := size / 2
    if (pairs[base + half]?).any fun (a, _) => axis < a then bisect axis pairs base (size - half)
    else bisect axis pairs (base + half) (size - half)
termination_by size

/-- Puts a pair among increasing ones: in place of the one with its axis, else next to where the search for it ends. -/
def setAxis (axis value : String) (pairs : List (String × String)) : List (String × String) :=
  let i := bisect axis pairs 0 pairs.length
  match pairs[i]? with
  | none => pairs.insertIdx i (axis, value)
  | some (a, _) =>
    if a = axis then pairs.set i (axis, value)
    else pairs.insertIdx (if a < axis then i + 1 else i) (axis, value)

/-- The key with one axis set. Axis names are the same in any case, and a value set before gives way. -/
def withVariance (k : Key) (axis value : String) : Key := ofParts k.uri (setAxis (lowerCase axis) value k.variance)

/-- Unequal hashes decide; the parts are compared only when the hashes agree. -/
instance : BEq Key where
  beq a b := a.hash == b.hash && (a.uri == b.uri && a.variance == b.variance)

instance : LawfulBEq Key where
  eq_of_beq {a b} h := by
    obtain ⟨u, v, n⟩ := a
    obtain ⟨u', v', n'⟩ := b
    simp only [BEq.beq, Bool.and_eq_true] at h
    obtain ⟨hn, hu, hv⟩ := h
    have hn : n = n' := eq_of_beq hn
    have hu : u = u' := eq_of_beq hu
    have hv : v = v' := eq_of_beq hv
    simp [hn, hu, hv]
  rfl {a} := by
    show (a.hash == a.hash && (a.uri == a.uri && a.variance == a.variance)) = true
    simp

instance : DecidableEq Key := instDecidableEqOfLawfulBEq

/-- Keys hash to the hash they carry. -/
instance : Hashable Key := ⟨hash⟩

/-- Lists of pairs in lexicographic order, a proper beginning first. -/
def compareAxes : List (String × String) → List (String × String) → Ordering
  | [], [] => .eq
  | [], _ :: _ => .lt
  | _ :: _, [] => .gt
  | (a, v) :: rest, (a', v') :: rest' => (compare a a').then ((compare v v').then (compareAxes rest rest'))

/-- The order of the URIs decides, then the order of the axes. -/
def order (a b : Key) : Ordering := (compare a.uri b.uri).then (compareAxes a.variance b.variance)

instance : Ord Key := ⟨order⟩

/-- The URI, and behind it the axes in brackets if there are any. -/
def display (k : Key) : String :=
  if k.variance.isEmpty then k.uri
  else k.uri ++ " [" ++ ",".intercalate (k.variance.map fun (axis, value) => axis ++ "=" ++ value) ++ "]"

instance : ToString Key := ⟨display⟩

def pairToJson (p : String × String) : Json := .array [.ofString p.1, .ofString p.2]

/-- An object, which leaves the axes out when there are none. -/
def toJson (k : Key) : Json :=
  .ofFields (("uri", .ofString k.uri) ::
    if k.variance.isEmpty then [] else [("variance", .array (k.variance.map pairToJson))])

def pairOfJson? : Json → Option (String × String)
  | .array [axis, value] => return (← axis.asString?, ← value.asString?)
  | _ => none

def varianceOfJson? : Json → Option (List (String × String))
  | .array pairs => pairs.mapM pairOfJson?
  | _ => none

/-- Reads the object or an array of its values, and brings the axes to normal form. -/
def ofJson? : Json → Option Key
  | .object members => do
    let fields ← Json.fields? members
    let uri ← (← Json.required? "uri" fields).asString?
    let variance ← match ← Json.field? "variance" fields with
      | none => some []
      | some pairs => varianceOfJson? pairs
    return ofParts uri variance
  | .array [uri] => return ofParts (← uri.asString?) []
  | .array [uri, variance] => return ofParts (← uri.asString?) (← varianceOfJson? variance)
  | _ => none

/-- The key that a JSON text stands for. -/
def parse? (text : String) : Option Key := (Json.parse? text).bind ofJson?

end Key
end ResponseCache
