import SpellText.Text.Digit

/-!
# Digits of natural numbers

Writing a natural number in base ten, alone (`digits`) or as a fixed-point
number with a given count of places (`fixedPoint`).
-/

namespace SpellText.Decimal

/-- The digits of `n` in base ten, most significant first. -/
def digits (n : Nat) : List Char := Nat.toDigits 10 n

/-- The digits of `n`, filled up with zeros on the left to `width` characters. -/
def paddedDigits (width n : Nat) : List Char :=
  let ds := digits n
  List.replicate (width - ds.length) '0' ++ ds

/-- The number `n / 10 ^ places` with `places` digits after the point; no
point when `places` is zero. -/
def fixedPoint (places n : Nat) : List Char :=
  if places = 0 then digits n
  else
    let unit := Nat.pow 10 places
    digits (n / unit) ++ '.' :: paddedDigits places (n % unit)

/-- The text with a minus sign in front when `negative`. -/
def signed (negative : Bool) (s : List Char) : List Char :=
  if negative then '-' :: s else s

end SpellText.Decimal
