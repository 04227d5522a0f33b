import SpellText.Decimal.Reading
import SpellText.Json.Basic

/-!
# Reading JSON

A reader for JSON texts. Of a repeated member the last value stays, in the
first place. Values may be nested `nestingLimit` deep, so that a tree that has
been read can be walked without harm.

A number without fraction and exponent is whole if it fits 64 bits, signed or
unsigned. Every other number is read as its leading digits, as many as fit 64
bits, scaled by one power of ten. That is exact for the numbers people write;
with more than fifteen digits or a large exponent the last bit may differ from
the nearest double. A number beyond the range of doubles is refused.
-/

namespace SpellText.Json.Reader

open Decimal (digitRun isExponentMark splitSign)
open Text (hexDigit?)

/-- How deep arrays and objects may be nested. -/
def nestingLimit : Nat := 127

/-- The blanks between tokens. -/
def isSpace (c : Char) : Bool := c == ' ' || c == '\n' || c == '\t' || c == '\r'

/-- The text after leading blanks. -/
def skipSpace (s : List Char) : List Char := s.dropWhile isSpace

/-! ## Numbers -/

/-- The greatest significand. -/
def wordMax : Nat := Nat.pow 2 64 - 1

/-- A significand with a power of ten. -/
structure Scaled where
  significand : Nat
  exponent : Int

/-- Take in the digits before the point: those that fit, and a count of the rest. -/
def takeWhole (x : Scaled) : List Char → Scaled
  | [] => x
  | d :: ds =>
    let n := 10 * x.significand + Text.digitsValue [d]
    if wordMax < n then { x with exponent := x.exponent + (ds.length + 1) }
    else takeWhole { x with significand := n } ds

/-- Take in the digits after the point, as many as fit. -/
def takeFraction (x : Scaled) : List Char → Scaled
  | [] => x
  | d :: ds =>
    let n := 10 * x.significand + Text.digitsValue [d]
    if wordMax < n then x
    else takeFraction ⟨n, x.exponent - 1⟩ ds

/-- The power of ten `10 ^ n`. -/
def tenTo (n : Nat) : Float := Float.ofScientific 1 false n

/-- Divide by `10 ^ n` in steps that a double can hold. -/
def divideByPower : Nat → Float → Nat → Float
  | 0, f, _ => f
  | steps + 1, f, n =>
    if n ≤ 308 then f / tenTo n
    else if f == 0.0 then f
    else divideByPower steps (f / tenTo 308) (n - 308)

/-- The double of a scaled significand, unless it is out of range. -/
def Scaled.toFloat? (x : Scaled) : Option Float :=
  let f := Float.ofNat x.significand
  if x.exponent < 0 then some (divideByPower 4 f x.exponent.natAbs)
  else if x.exponent ≤ 308 then
    let y := f * tenTo x.exponent.toNat
    if y.isInf then none else some y
  else if f == 0.0 then some f
  else none

/-- The greatest exponent that is read as a number. -/
def exponentMax : Nat := Nat.pow 2 31 - 1

/-- Scale by a written exponent. One that is too large leaves only zero. -/
def Scaled.shift? (x : Scaled) (negative : Bool) (ds : List Char) : Option Scaled :=
  let n := Text.digitsValueUpTo (exponentMax + 1) ds
  if exponentMax < n then
    if negative || x.significand == 0 then some ⟨0, 0⟩ else none
  else some { x with exponent := x.exponent + (if negative then -(n : Int) else n) }

/-- The digits before the point: a lone zero, or digits that begin with none. -/
def wholeDigits? (s : List Char) : Option (List Char × List Char) :=
  match digitRun s with
  | ([], _) => none
  | ('0' :: _ :: _, _) => none
  | (ds, rest) => some (ds, rest)

/-- The digits after a point, if there is one. -/
def fractionDigits? : List Char → Option (Option (List Char) × List Char)
  | '.' :: s =>
    match digitRun s with
    | ([], _) => none
    | (ds, rest) => some (some ds, rest)
  | s => some (none, s)

/-- The digits of an exponent behind its sign. -/
def exponentDigits? (negative : Bool) (s : List Char) :
    Option (Option (Bool × List Char) × List Char) :=
  match digitRun s with
  | ([], _) => none
  | (ds, rest) => some (some (negative, ds), rest)

/-- An exponent, if there is one: its sign and its digits. -/
def exponent? : List Char → Option (Option (Bool × List Char) × List Char)
  | c :: s =>
    if isExponentMark c then
      let (negative, s) := splitSign s
      exponentDigits? negative s
    else some (none, c :: s)
  | [] => some (none, [])

/-- The double with sign, unless it is out of range. -/
def real? (negative : Bool) (x : Scaled) : Option Number :=
  x.toFloat?.map fun f => .real (if negative then -f else f)

/-- The number with the given digits. -/
def numberOf? (negative : Bool) (whole : List Char) (fraction : Option (List Char))
    (exponent : Option (Bool × List Char)) : Option Number :=
  let x := takeWhole ⟨0, 0⟩ whole
  match fraction, exponent with
  | none, none =>
    if x.exponent ≠ 0 then real? negative x
    else if !negative then some (.whole x.significand)
    else if 0 < x.significand && x.significand ≤ Nat.pow 2 63 then some (.whole (-x.significand))
    else real? negative x
  | fraction, none => real? negative (takeFraction x (fraction.getD []))
  | fraction, some (down, ds) =>
    ((takeFraction x (fraction.getD [])).shift? down ds).bind (real? negative)

/-- A number at the start of the text. -/
def number? (s : List Char) : Option (Number × List Char) := do
  let (negative, s) := match s with
    | '-' :: s => (true, s)
    | s => (false, s)
  let (whole, s) ← wholeDigits? s
  let (fraction, s) ← fractionDigits? s
  let (exponent, s) ← exponent? s
  let n ← numberOf? negative whole fraction exponent
  return (n, s)

/-! ## Strings -/

/-- The value of four hexadecimal digits. -/
def hexWord? (a b c d : Char) : Option Nat := do
  return 4096 * (← hexDigit? a) + 256 * (← hexDigit? b) + 16 * (← hexDigit? c) + (← hexDigit? d)

/-- The first half of a character outside the basic plane. -/
def isHighSurrogate (n : Nat) : Bool := 0xD800 ≤ n && n ≤ 0xDBFF

/-- The second half of a character outside the basic plane. -/
def isLowSurrogate (n : Nat) : Bool := 0xDC00 ≤ n && n ≤ 0xDFFF

/-- The character of a pair of halves. -/
def joinSurrogates (high low : Nat) : Char :=
  Char.ofNat (0x10000 + 0x400 * (high - 0xD800) + (low - 0xDC00))

/-- The character that a single-letter escape stands for. -/
def escaped? : Char → Option Char
  | '"' => some '"'
  | '\\' => some '\\'
  | '/' => some '/'
  | 'b' => some '\x08'
  | 'f' => some '\x0c'
  | 'n' => some '\n'
  | 'r' => some '\r'
  | 't' => some '\t'
  | _ => none

/-- The character of a `\u` escape whose four digits come first: one unit, or
a pair of halves in two escapes. -/
def unicodeEscape? : List Char → Option (Char × List Char)
  | a :: b :: c :: d :: rest => do
    let n ← hexWord? a b c d
    if isLowSurrogate n then none
    else if isHighSurrogate n then
      match rest with
      | '\\' :: 'u' :: a :: b :: c :: d :: rest =>
        let m ← hexWord? a b c d
        if isLowSurrogate m then some (joinSurrogates n m, rest) else none
      | _ => none
    else some (Char.ofNat n, rest)
  | _ => none

/-- One character of a string, written plainly or escaped. -/
def stringChar? : List Char → Option (Char × List Char)
  | '\\' :: 'u' :: rest => unicodeEscape? rest
  | '\\' :: c :: rest => (escaped? c).map (·, rest)
  | c :: rest => if c == '\\' || c.toNat < 0x20 then none else some (c, rest)
  | [] => none

/-- The rest of a string behind its opening quote, after the characters `done`
(the latest first). A copy of the text bounds the rounds. -/
def stringRest? : List Char → List Char → List Char → Option (String × List Char)
  | _, done, '"' :: rest => some (String.ofList done.reverse, rest)
  | [], _, _ => none
  | _ :: rounds, done, s =>
    match stringChar? s with
    | some (c, rest) => stringRest? rounds (c :: done) rest
    | none => none

/-- A string behind its opening quote. -/
def string? (s : List Char) : Option (String × List Char) := stringRest? s [] s

/-! ## Values -/

mutual

/-- A value at the start of the text, with `depth` more levels allowed. -/
def value? : Nat → Nat → List Char → Option (Json × List Char)
  | 0, _, _ => none
  | fuel + 1, depth, s =>
    match skipSpace s with
    | 'n' :: 'u' :: 'l' :: 'l' :: rest => some (.null, rest)
    | 't' :: 'r' :: 'u' :: 'e' :: rest => some (.bool true, rest)
    | 'f' :: 'a' :: 'l' :: 's' :: 'e' :: rest => some (.bool false, rest)
    | '"' :: rest => (string? rest).map fun (text, rest) => (.string text, rest)
    | '[' :: rest =>
      match depth with
      | 0 => none
      | depth + 1 =>
        match skipSpace rest with
        | ']' :: rest => some (.array [], rest)
        | rest => items? fuel depth [] rest
    | '{' :: rest =>
      match depth with
      | 0 => none
      | depth + 1 =>
        match skipSpace rest with
        | '}' :: rest => some (.object [], rest)
        | rest => members? fuel depth [] rest
    | s => (number? s).map fun (n, rest) => (.number n, rest)

/-- The items of an array after `done` (the latest first), up to the bracket. -/
def items? : Nat → Nat → List Json → List Char → Option (Json × List Char)
  | 0, _, _, _ => none
  | fuel + 1, depth, done, s =>
    match value? fuel depth s with
    | none => none
    | some (item, rest) =>
      match skipSpace rest with
      | ',' :: rest => items? fuel depth (item :: done) rest
      | ']' :: rest => some (.array (item :: done).reverse, rest)
      | _ => none

/-- The members of an object after `done`, up to the brace. -/
def members? : Nat → Nat → List (String × Json) → List Char → Option (Json × List Char)
  | 0, _, _, _ => none
  | fuel + 1, depth, done, s =>
    match skipSpace s with
    | '"' :: rest =>
      match string? rest with
      | none => none
      | some (key, rest) =>
        match skipSpace rest with
        | ':' :: rest =>
          match value? fuel depth rest with
          | none => none
          | some (item, rest) =>
            let done := Entries.insert key item done
            match skipSpace rest with
            | ',' :: rest => members? fuel depth done rest
            | '}' :: rest => some (.object done, rest)
            | _ => none
        | _ => none
    | _ => none

end

end Reader

/-- Read a JSON text. -/
def parse? (text : String) : Option Json :=
  let s := text.toList
  match Reader.value? (2 * s.length + 2) Reader.nestingLimit s with
  | some (v, rest) => if (Reader.skipSpace rest).isEmpty then some v else none
  | none => none

end SpellText.Json
