import SpellText.Decimal.Reading
import SpellText.Toml.Basic

/-!
# TOML scalars

The values that are written without quotes: booleans, integers in four bases,
floats, and dates and times. Each is recognized as a whole word; underscores may
divide digits.
-/

namespace SpellText.Toml.Scalar

open Decimal (isExponentMark splitSign)
open Text (digitsValue hexDigit?)

/-! ## Digits -/

/-- A hexadecimal digit. -/
def isHexDigit (c : Char) : Bool := (hexDigit? c).isSome

/-- An octal digit. -/
def isOctalDigit (c : Char) : Bool := '0' ≤ c && c ≤ '7'

/-- A binary digit. -/
def isBinaryDigit (c : Char) : Bool := c == '0' || c == '1'

/-- The digits of a run in which underscores stand between digits only;
`fresh` says that a digit has to come next. -/
def undivided? (isDigit : Char → Bool) (fresh : Bool) : List Char → Option (List Char)
  | [] => if fresh then none else some []
  | c :: rest =>
    if isDigit c then (undivided? isDigit false rest).map (c :: ·)
    else if c == '_' && !fresh then undivided? isDigit true rest
    else none

/-- The value of digits in a base. -/
def valueIn (base : Nat) (ds : List Char) : Nat :=
  ds.foldl (fun n d => base * n + (hexDigit? d).getD 0) 0

/-! ## Numbers -/

/-- Decimal digits without a leading zero. -/
def decimalDigits? (s : List Char) : Option (List Char) := do
  let ds ← undivided? Char.isDigit true s
  match ds with
  | '0' :: _ :: _ => none
  | ds => some ds

/-- An integer of any size. -/
def unboundedInteger? : List Char → Option Int
  | '0' :: 'x' :: s => (undivided? isHexDigit true s).map fun ds => (valueIn 16 ds : Int)
  | '0' :: 'o' :: s => (undivided? isOctalDigit true s).map fun ds => (valueIn 8 ds : Int)
  | '0' :: 'b' :: s => (undivided? isBinaryDigit true s).map fun ds => (valueIn 2 ds : Int)
  | s =>
    let (negative, s) := splitSign s
    (decimalDigits? s).map fun ds =>
      if negative then -(digitsValue ds : Int) else (digitsValue ds : Int)

/-- The integer fits 128 bits, signed or unsigned. -/
def isInRange (n : Int) : Bool := -(Nat.pow 2 127 : Int) ≤ n && n < (Nat.pow 2 128 : Int)

/-- An integer that fits 128 bits. -/
def integer? (s : List Char) : Option Int := (unboundedInteger? s).filter isInRange

/-- The digits after the point of a float, and what follows them. -/
def fraction? : List Char → Option (List Char × List Char)
  | '.' :: s => do
    let ds ← undivided? Char.isDigit true (s.takeWhile (!isExponentMark ·))
    some (ds, s.dropWhile (!isExponentMark ·))
  | s => some ([], s)

/-- The exponent of a float: whether it is below zero, and its digits. -/
def exponent? : List Char → Option (Bool × List Char)
  | [] => some (false, [])
  | c :: s =>
    if isExponentMark c then
      let (down, s) := splitSign s
      (undivided? Char.isDigit true s).map (down, ·)
    else none

/-- A float: digits with a fraction, an exponent or both, in the range of doubles. -/
def finite? (s : List Char) : Option Float := do
  let isWhole (c : Char) : Bool := c.isDigit || c == '_'
  let whole ← decimalDigits? (s.takeWhile isWhole)
  let tail := s.dropWhile isWhole
  if tail.isEmpty then none
  let (fraction, tail) ← fraction? tail
  let (down, exponent) ← exponent? tail
  let x := (Decimal.Parts.mk whole fraction down exponent).value
  if x.isInf then none else some x

/-- A float, with its sign. -/
def float? (s : List Char) : Option Float :=
  let (negative, s) := splitSign s
  let magnitude :=
    if s = "inf".toList then some Decimal.infinity
    else if s = "nan".toList then some Decimal.notANumber
    else finite? s
  magnitude.map fun x => if negative then -x else x

/-! ## Dates and times -/

/-- A number of exactly two digits that is at most `max`. -/
def twoDigits? (max : Nat) : List Char → Option (Nat × List Char)
  | a :: b :: s =>
    if a.isDigit && b.isDigit then
      let n := digitsValue [a, b]
      if n ≤ max then some (n, s) else none
    else none
  | _ => none

/-- The text behind a character. -/
def after? (c : Char) : List Char → Option (List Char)
  | d :: s => if d = c then some s else none
  | [] => none

/-- The year has a 29th of February. -/
def isLeapYear (year : Nat) : Bool := (year % 4 == 0 && year % 100 != 0) || year % 400 == 0

/-- The days of a month. -/
def daysIn (year month : Nat) : Nat :=
  if month = 2 then (if isLeapYear year then 29 else 28)
  else if month = 4 || month = 6 || month = 9 || month = 11 then 30
  else 31

/-- A date at the start; gives what follows. -/
def date? : List Char → Option (List Char)
  | a :: b :: c :: d :: s => do
    if !([a, b, c, d].all Char.isDigit) then none
    let year := digitsValue [a, b, c, d]
    let (month, s) ← twoDigits? 12 (← after? '-' s)
    let (day, s) ← twoDigits? 31 (← after? '-' s)
    if month = 0 || day = 0 || daysIn year month < day then none
    return s
  | _ => none

/-- The fraction of a second, if there is one; gives what follows. -/
def secondFraction? : List Char → Option (List Char)
  | '.' :: s => if (s.takeWhile Char.isDigit).isEmpty then none else some (s.dropWhile Char.isDigit)
  | s => some s

/-- A time at the start; gives what follows. The seconds may be left out. -/
def time? (s : List Char) : Option (List Char) := do
  let (_, s) ← twoDigits? 23 s
  let (_, s) ← twoDigits? 59 (← after? ':' s)
  match s with
  | ':' :: s =>
    let (_, s) ← twoDigits? 60 s
    secondFraction? s
  | s => some s

/-- The offset from universal time, if there is one; nothing follows. -/
def isOffset : List Char → Bool
  | [] => true
  | ['Z'] => true
  | ['z'] => true
  | c :: s =>
    (c == '+' || c == '-') &&
      match twoDigits? 23 s with
      | some (_, s) => (((after? ':' s).bind (twoDigits? 59)).map (·.2)) == some []
      | none => false

/-- A mark between a date and a time. -/
def isTimeMark (c : Char) : Bool := c == 'T' || c == 't' || c == ' '

/-- A date, a time, or both. -/
def isMoment (s : List Char) : Bool :=
  match date? s with
  | some [] => true
  | some (c :: s) => isTimeMark c && (time? s).any isOffset
  | none => time? s == some []

/-- The value of a word. -/
def value? (s : List Char) : Option Toml :=
  if s = "true".toList then some (.boolean true)
  else if s = "false".toList then some (.boolean false)
  else if isMoment s then some (.moment (String.ofList s))
  else ((integer? s).map .integer).or ((float? s).map .float)

/-- A character of a word. -/
def isWordChar (c : Char) : Bool :=
  c.isAlphanum || c == '+' || c == '-' || c == '_' || c == '.' || c == ':'

/-- The word at the start of a text, and the rest. A blank between a date and
the digits of a time belongs to the word. -/
def word (s : List Char) : List Char × List Char :=
  let (w, rest) := s.span isWordChar
  match rest with
  | ' ' :: c :: tail =>
    if c.isDigit && date? w == some [] then
      let (w', rest) := (c :: tail).span isWordChar
      (w ++ ' ' :: w', rest)
    else (w, rest)
  | _ => (w, rest)

end SpellText.Toml.Scalar
