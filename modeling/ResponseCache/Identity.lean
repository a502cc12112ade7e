import ResponseCache.Json.Basic
/-!
Identities name the generations of an entry: a fresh one is minted whenever primary content is stored, and nothing else
changes it. One mint serves a whole store, so its identities are distinct across keys and increase with time.
-/
namespace ResponseCache

/-- Identities are numbers below this one. -/
def identityLimit : Nat := UInt64.size

/-- The name of one generation of primary content. -/
structure Identity where
  raw : UInt64
  deriving DecidableEq, Repr

namespace Identity

/-- The identity of nothing, which no mint gives out. -/
def absent : Identity := ⟨0⟩

def isAbsent (i : Identity) : Bool := i.raw = 0

instance : Inhabited Identity := ⟨absent⟩

instance : LE Identity := ⟨fun a b => a.raw ≤ b.raw⟩
instance : LT Identity := ⟨fun a b => a.raw < b.raw⟩
instance (a b : Identity) : Decidable (a ≤ b) := inferInstanceAs (Decidable (a.raw ≤ b.raw))
instance (a b : Identity) : Decidable (a < b) := inferInstanceAs (Decidable (a.raw < b.raw))

def display (i : Identity) : String := if i.isAbsent then "absent" else "#" ++ toString i.raw.toNat

def toJson (i : Identity) : Json := .ofNat i.raw.toNat

def ofJson? (j : Json) : Option Identity := (j.asNat? identityLimit).map fun n => ⟨n.toUInt64⟩

end Identity

/-- A mint is the number that it gives out next. -/
structure Mint where
  next : UInt64 := 1
  deriving DecidableEq, Repr

namespace Mint

/-- The next identity, unless the numbers are used up: the last one is never given out. -/
def mint? (m : Mint) : Option (Identity × Mint) :=
  if m.next = 0xffffffffffffffff then none else some (⟨m.next⟩, ⟨m.next + 1⟩)

/-- Moves the mint past an identity that was seen elsewhere. -/
def advancePast (m : Mint) (seen : Identity) : Mint :=
  ⟨max m.next (if seen.raw = 0xffffffffffffffff then seen.raw else seen.raw + 1)⟩

end Mint
end ResponseCache
