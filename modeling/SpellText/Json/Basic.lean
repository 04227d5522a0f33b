import SpellText.Table

/-!
# JSON values

JSON documents as trees. Objects keep the order of their members. Whole numbers
are kept apart from other numbers, so that they are written back as they were
read.
-/

namespace SpellText

/-- A JSON number. -/
inductive Json.Number
  /-- A number without fraction and exponent that fits a machine word. -/
  | whole (n : Int)
  /-- Any other number. -/
  | real (x : Float)

/-- The number as a double. -/
def Json.Number.toFloat : Json.Number → Float
  | .whole n => Float.ofInt n
  | .real x => x

/-- A JSON value. -/
inductive Json
  | null
  | bool (b : Bool)
  | number (n : Json.Number)
  | string (s : String)
  | array (items : List Json)
  | object (members : List (String × Json))

namespace Json

instance : Inhabited Json := ⟨null⟩

/-- The member `key` of an object. -/
def member? (key : String) : Json → Option Json
  | object members => Entries.get? key members
  | _ => none

/-- The text of a string. -/
def string? : Json → Option String
  | string s => some s
  | _ => none

/-- The number as a double. -/
def float? : Json → Option Float
  | number n => some n.toFloat
  | _ => none

/-- A whole number that is not negative. -/
def count? : Json → Option Nat
  | number (.whole (.ofNat n)) => some n
  | _ => none

/-- The items of an array. -/
def array? : Json → Option (List Json)
  | array items => some items
  | _ => none

/-- The members of an object. -/
def object? : Json → Option (List (String × Json))
  | object members => some members
  | _ => none

/-- The value is an object. -/
def isObject : Json → Bool
  | object _ => true
  | _ => false

mutual

/-- The strings in a tree, from left to right. -/
def strings : Json → List String
  | string s => [s]
  | array items => stringsOfItems items
  | object members => stringsOfMembers members
  | null => []
  | bool _ => []
  | number _ => []

/-- The strings in the items of an array. -/
def stringsOfItems : List Json → List String
  | [] => []
  | item :: rest => item.strings ++ stringsOfItems rest

/-- The strings in the members of an object. -/
def stringsOfMembers : List (String × Json) → List String
  | [] => []
  | (_, v) :: rest => v.strings ++ stringsOfMembers rest

end

end Json

end SpellText
