import SpellText.Text.Lowercase

/-!
# Names

Game data and texts disagree on the case and the separators of names
(`Q_Damage`, `qdamage`, `QDamage`). Names are therefore compared through keys
made of small ASCII letters and digits: `slug` drops every other character,
`camelCase` takes them for separators and capitalizes the runs between them.
-/

namespace SpellText.Name

open Text (lowercase lowercased)

/-- A small ASCII letter or a digit. -/
def isKeyChar (c : Char) : Bool := c.isLower || c.isDigit

/-- The name in lower case without its separators. -/
def slug (name : String) : String :=
  String.ofList ((lowercase name.toList).filter isKeyChar)

/-- The runs of key characters, each with a capital first letter; `fresh` says
that the next key character begins a run. -/
def capitalizeRuns (fresh : Bool) : List Char → List Char
  | [] => []
  | c :: rest =>
    if isKeyChar c then (if fresh then c.toUpper else c) :: capitalizeRuns false rest
    else capitalizeRuns true rest

/-- The runs of letters and digits of the name, capitalized and joined. -/
def camelCase (name : String) : String :=
  String.ofList (capitalizeRuns true (lowercase name.toList))

/-- The camel-cased name in lower case. -/
def camelLower (name : String) : String := lowercased (camelCase name)

/-- A way to turn a free-form reference into a key. -/
inductive Spelling
  /-- Camel-cased, then in lower case. -/
  | camelLower
  /-- Only small letters and digits. -/
  | alphanumeric
  /-- In lower case and otherwise as it stands. -/
  | rawLower
  deriving DecidableEq, Repr

/-- The key of `reference`. -/
def Spelling.key : Spelling → String → String
  | .camelLower, reference => Name.camelLower reference
  | .alphanumeric, reference => slug reference
  | .rawLower, reference => lowercased reference

/-- The spellings that a reference is looked up under, in order. -/
def referenceSpellings : List Spelling := [.camelLower, .alphanumeric, .rawLower]

end SpellText.Name
