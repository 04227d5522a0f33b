import SpellText.Text.Digit

/-!
# Reading decimals

Decimal texts as doubles, each rounded to the nearest. `Parts.value` is the
double of the digits of an unsigned decimal; `float?` reads a whole text with
sign, fraction and exponent, or one of the words for infinity and for not a
number.

An exponent is read until it comes to 65536, far beyond the range of doubles.
Further digits of it change nothing, also where as many zeros in front of the
number or behind it would make up for them.
-/

namespace SpellText.Decimal

open Text (digitsValue digitsValueUpTo)

/-- The digits of an unsigned decimal. -/
structure Parts where
  whole : List Char
  fraction : List Char
  /-- The exponent is below zero. -/
  down : Bool
  exponent : List Char

/-- Infinity. -/
def infinity : Float := 1.0 / 0.0

/-- Not a number. -/
def notANumber : Float := 0.0 / 0.0

/-- An exponent of this size grows no further. -/
def exponentBound : Nat := 65536

/-- The exponent as a number. -/
def Parts.scale (p : Parts) : Int :=
  let n : Int := digitsValueUpTo exponentBound p.exponent
  if p.down then -n else n

/-- How many digits of a decimal are told apart. No double and no point half-way
between two of them has as many. -/
def precision : Nat := 770

/-- The first digits of a decimal, and a one for all others if they are not all
zeros: enough to know the double nearest to it. -/
def significant (ds : List Char) : List Char :=
  let (first, others) := ds.splitAt precision
  if others.all (· == '0') then first else first ++ ['1']

/-- The double nearest to the decimal. With the point in front of its first digit
other than zero, the exponent alone decides on what is too small or too large. -/
def Parts.value (p : Parts) : Float :=
  let all := p.whole ++ p.fraction
  let ds := all.dropWhile (· == '0')
  let point : Int := p.scale + p.whole.length - (all.length - ds.length : Nat)
  if ds.isEmpty || point < -330 then 0.0
  else if 310 < point then infinity
  else
    let ds := significant ds
    let e := point - ds.length
    Float.ofScientific (digitsValue ds) (e < 0) e.natAbs

/-- The run of digits at the start, and the rest. -/
def digitRun (s : List Char) : List Char × List Char := s.span Char.isDigit

/-- The digits after a point at the start of `s`, and the rest. -/
def fractionRun : List Char → List Char × List Char
  | '.' :: s => digitRun s
  | s => ([], s)

/-- A sign at the start: whether it is a minus, and the rest. -/
def splitSign : List Char → Bool × List Char
  | '+' :: s => (false, s)
  | '-' :: s => (true, s)
  | s => (false, s)

/-- The mark of an exponent. -/
def isExponentMark (c : Char) : Bool := c == 'e' || c == 'E'

/-- An unsigned decimal at the start of the text: digits with an optional
fraction, or a point with a fraction, and then an optional exponent. An exponent
mark without digits makes the text no decimal at all. -/
def unsigned? (s : List Char) : Option (Parts × List Char) :=
  let (whole, afterWhole) := digitRun s
  let (fraction, rest) := fractionRun afterWhole
  if whole.isEmpty && fraction.isEmpty then none
  else match rest with
    | c :: tail =>
      if isExponentMark c then
        let (down, tail) := splitSign tail
        match digitRun tail with
        | ([], _) => none
        | (exponent, rest) => some (⟨whole, fraction, down, exponent⟩, rest)
      else some (⟨whole, fraction, false, []⟩, rest)
    | [] => some (⟨whole, fraction, false, []⟩, [])

/-- The double that an unsigned text stands for as a whole. -/
def magnitude? (s : List Char) : Option Float :=
  let letters := s.map Char.toLower
  if letters = "inf".toList || letters = "infinity".toList then some infinity
  else if letters = "nan".toList then some notANumber
  else match unsigned? s with
    | some (p, []) => some p.value
    | _ => none

/-- The double that a text stands for as a whole. -/
def float? : List Char → Option Float
  | '-' :: s => (magnitude? s).map fun x => -x
  | '+' :: s => magnitude? s
  | s => magnitude? s

end SpellText.Decimal
