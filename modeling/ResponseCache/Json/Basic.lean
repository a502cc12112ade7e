/-!
JSON documents as their grammar leaves them: a number keeps its characters, an object keeps every member in order, and
a string literal that names half of a surrogate pair stands for no text.
-/
namespace ResponseCache

inductive Json
  | null
  | bool (value : Bool)
  | number (lexeme : List Char)
  | string (text : Option String)
  | array (items : List Json)
  | object (members : List (Option String × Json))
  deriving Repr

namespace Json

def ofString (s : String) : Json := string (some s)

def ofNat (n : Nat) : Json := number (Nat.toDigits 10 n)

def ofOption {α : Type} (f : α → Json) : Option α → Json
  | none => null
  | some a => f a

/-- An object with these members. -/
def ofFields (fields : List (String × Json)) : Json := object (fields.map fun (name, value) => (some name, value))

def asString? : Json → Option String
  | string s => s
  | _ => none

/-- A number without sign, fraction and exponent, below `bound`. -/
def asNat? (bound : Nat) : Json → Option Nat
  | number ds =>
    let n := Nat.ofDigitChars 10 ds 0
    if ds.all Char.isDigit && n < bound then some n else none
  | _ => none

/-- Every member's name, if they all are text. -/
def fields? (members : List (Option String × Json)) : Option (List (String × Json)) :=
  members.mapM fun (name, value) => name.map fun name => (name, value)

/-- A field that may be missing but not be written twice. -/
def field? (name : String) (fields : List (String × Json)) : Option (Option Json) :=
  match fields.filter fun field => field.1 = name with
  | [] => some none
  | [field] => some (some field.2)
  | _ => none

/-- A field that is written once. -/
def required? (name : String) (fields : List (String × Json)) : Option Json := (field? name fields).join

end Json
end ResponseCache
