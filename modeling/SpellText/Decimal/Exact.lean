/-!
# Exact values of doubles

A double is either not a number, an infinity, or exactly `± m · 2 ^ e`.
`Exact.ofFloat` gives that value, and `scaled` writes a positive `m · 2 ^ e`
over a power of ten as a quotient of natural numbers, so that all rounding to
decimals is arithmetic on `Nat`.
-/

namespace SpellText.Decimal

open Float.Model (UnpackedFloat)

/-- What a double stands for. A zero has mantissa 0 and keeps its sign. -/
inductive Exact
  | nan
  | infinite (negative : Bool)
  | finite (negative : Bool) (mantissa : Nat) (exponent : Int)
  deriving DecidableEq

/-- The sign bit of a decoded sign. -/
def isNegative : UnpackedFloat.Sign → Bool
  | .negative => true
  | .positive => false

/-- The value of the double `x`. -/
def Exact.ofFloat (x : Float) : Exact :=
  match UnpackedFloat.unpack .binary64 x.toBits.toBitVec with
  | .notANumber => .nan
  | .infinity s => .infinite (isNegative s)
  | .zero s => .finite (isNegative s) 0 0
  | .finite s m e _ => .finite (isNegative s) m e

/-- A fraction `num / den` of natural numbers. -/
structure Ratio where
  num : Nat
  den : Nat

/-- The number `m · 2 ^ e` in units of `10 ^ k`. -/
def scaled (m : Nat) (e k : Int) : Ratio where
  num := m * Nat.pow 2 e.toNat * Nat.pow 10 (-k).toNat
  den := Nat.pow 2 (-e).toNat * Nat.pow 10 k.toNat

/-- The denominator of a scaled number is positive. -/
theorem scaled_den_pos (m : Nat) (e k : Int) : 0 < (scaled m e k).den :=
  Nat.mul_pos (Nat.pow_pos (by decide)) (Nat.pow_pos (by decide))

namespace Ratio

/-- The largest natural number that is at most the fraction. -/
def floor (r : Ratio) : Nat := r.num / r.den

/-- The nearest natural number; a half goes to the even neighbour. -/
def roundEven (r : Ratio) : Nat :=
  let q := r.num / r.den
  let twice := 2 * (r.num % r.den)
  if twice < r.den then q else if r.den < twice then q + 1 else q + q % 2

/-- The nearest natural number; a half goes up. -/
def roundUp (r : Ratio) : Nat := (2 * r.num + r.den) / (2 * r.den)

/-- The distance of the fraction from `n`, in units of `1 / den`. -/
def distance (r : Ratio) (n : Nat) : Nat := (r.num - n * r.den) + (n * r.den - r.num)

end Ratio

end SpellText.Decimal
