import SpellText.Name

/-!
# Formulas

How game data describes a derived number: a formula is a sum of parts, and a
part is a number, a name to look up, a product or a sum of further parts. A
part that turns a named number into a scaling term labels it after the stat
that its name hints at (`scalingLabel`).
-/

namespace SpellText

/-- A part of a formula. -/
inductive Formula.Part
  /-- Whatever the name stands for. -/
  | named (name : String)
  /-- The flat part of what the name stands for, scaling with a stat. -/
  | stat (name : String)
  /-- A constant. -/
  | number (x : Float)
  /-- The product of two parts. -/
  | product (left right : Formula.Part)
  /-- The sum of parts. -/
  | sum (parts : List Formula.Part)
  /-- A part of a kind without a rule. -/
  | unsupported (kind : String)

/-- The sum of its parts. -/
structure Formula where
  parts : List Formula.Part

namespace Formula

/-- Fragments of names and the stats they hint at, in the order in which they
are tried. -/
def scalingHints : List (String × String) :=
  [("bonusad", "bonus AD"), ("totalad", "total AD"), ("ap", "AP"), ("armor", "Armor"),
    ("mr", "Magic Resist"), ("hp", "Health"), ("maxhp", "max Health"),
    ("missinghealth", "missing Health"), ("movespeed", "Move Speed"),
    ("attackspeed", "Attack Speed"), ("crit", "Critical Strike")]

/-- The text `s` holds `fragment`. -/
def occursIn (fragment : List Char) : List Char → Bool
  | [] => fragment.isEmpty
  | c :: s => fragment.isPrefixOf (c :: s) || occursIn fragment s

/-- The label of the stat that `name` hints at: the first hint that occurs in
the name, else the name itself without separators. -/
def scalingLabel (name : String) : String :=
  let letters := Text.lowercase name.toList
  match scalingHints.find? fun hint => occursIn hint.1.toList letters with
  | some hint => hint.2
  | none => Name.camelLower name

end Formula

end SpellText
