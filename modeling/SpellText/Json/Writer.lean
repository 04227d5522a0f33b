import SpellText.Json.Basic
import SpellText.Decimal.Shortest

/-!
# Writing JSON

Two layouts: `compact`, without any blanks, and `pretty`, with two spaces for
every level. Strings escape quotes, backslashes and control characters and
nothing else.
-/

namespace SpellText.Json

/-- Numbers between `1e-5` and `1e16` are written without an exponent; of two
shortest decimals at equal distance the even one is written. -/
def numberLayout : Decimal.Layout := ⟨-5, 15, .toEven⟩

/-- The text of a number. A number that JSON cannot hold is written as `null`. -/
def Number.text : Number → String
  | .whole n => toString n
  | .real x => String.ofList ((numberLayout.text? x).getD ['n', 'u', 'l', 'l'])

/-- A digit below sixteen, in lower case. -/
def hexChar (n : Nat) : Char := Nat.digitChar n

/-- A character inside a string. -/
def escapeChar (c : Char) : List Char :=
  match c with
  | '"' => ['\\', '"']
  | '\\' => ['\\', '\\']
  | '\n' => ['\\', 'n']
  | '\r' => ['\\', 'r']
  | '\t' => ['\\', 't']
  | '\x08' => ['\\', 'b']
  | '\x0c' => ['\\', 'f']
  | c =>
    if c.toNat < 0x20 then
      ['\\', 'u', '0', '0', hexChar (c.toNat / 16), hexChar (c.toNat % 16)]
    else [c]

/-- The string in quotes. -/
def quote (s : String) : String :=
  String.ofList ('"' :: s.toList.flatMap escapeChar ++ ['"'])

mutual

/-- The value without blanks. -/
def compact : Json → String
  | null => "null"
  | bool b => if b then "true" else "false"
  | number n => n.text
  | string s => quote s
  | array items => "[" ++ ",".intercalate (compactItems items) ++ "]"
  | object members => "\x7b" ++ ",".intercalate (compactMembers members) ++ "\x7d"

/-- The items of an array. -/
def compactItems : List Json → List String
  | [] => []
  | item :: rest => compact item :: compactItems rest

/-- The members of an object. -/
def compactMembers : List (String × Json) → List String
  | [] => []
  | (key, v) :: rest => (quote key ++ ":" ++ compact v) :: compactMembers rest

end

/-- A new line at a level of nesting. -/
def newline (level : Nat) : String := "\n" ++ String.ofList (List.replicate (2 * level) ' ')

/-- Texts on lines of their own inside of brackets, which stand at `level`; the
brackets alone where there are no texts. -/
def block (level : Nat) (opening closing : String) (texts : List String) : String :=
  if texts.isEmpty then opening ++ closing
  else
    let inner := newline (level + 1)
    opening ++ inner ++ ("," ++ inner).intercalate texts ++ newline level ++ closing

mutual

/-- The value over several lines, inside `level` others. -/
def prettyAt (level : Nat) : Json → String
  | null => "null"
  | bool b => if b then "true" else "false"
  | number n => n.text
  | string s => quote s
  | array items => block level "[" "]" (prettyItems (level + 1) items)
  | object members => block level "\x7b" "\x7d" (prettyMembers (level + 1) members)

/-- The items of an array at a level. -/
def prettyItems (level : Nat) : List Json → List String
  | [] => []
  | item :: rest => prettyAt level item :: prettyItems level rest

/-- The members of an object at a level. -/
def prettyMembers (level : Nat) : List (String × Json) → List String
  | [] => []
  | (key, v) :: rest => (quote key ++ ": " ++ prettyAt level v) :: prettyMembers level rest

end

/-- The value over several lines. -/
def pretty (v : Json) : String := prettyAt 0 v

end SpellText.Json
