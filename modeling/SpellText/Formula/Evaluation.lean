import SpellText.Amount.Basic
import SpellText.Formula.Basic

/-!
# Values of formulas

The amount that a formula comes to, given the amounts of the names in it. Parts
are added from left to right, and the first part without a value decides the
fault.
-/

namespace SpellText.Formula

/-- The amounts of names. -/
abbrev Lookup := String → Except Fault Amount

/-- The flat part of `a` as a term that scales with the stat hinted at by `name`. -/
def scaling (name : String) (a : Amount) : Amount :=
  .ofTerm (scalingLabel name) (a.flat?.getD [0.0])

mutual

/-- The amount of a part. -/
def Part.evaluate (lookup : Lookup) : Part → Except Fault Amount
  | .named name => lookup name
  | .stat name => (lookup name).map (scaling name)
  | .number x => .ok (.ofNumber x)
  | .product left right => do
    let a ← left.evaluate lookup
    let b ← right.evaluate lookup
    a.times b
  | .sum parts => sumParts lookup .zero parts
  | .unsupported kind => .error (.unsupportedPart kind)

/-- The amount `total` and the amounts of the parts. -/
def sumParts (lookup : Lookup) (total : Amount) : List Part → Except Fault Amount
  | [] => .ok total
  | part :: rest => do
    let a ← part.evaluate lookup
    sumParts lookup (total + a) rest

end

/-- The amount of a formula. -/
def evaluate (lookup : Lookup) (f : Formula) : Except Fault Amount :=
  sumParts lookup .zero f.parts

end SpellText.Formula
