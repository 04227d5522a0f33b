import SpellText.Decimal.Exact
import SpellText.Decimal.Digits

/-!
# Shortest decimals

The decimal with the fewest digits that reads back as a given double, and of
those the one nearest to it (`shortest`). The search walks the decimal grids
`10 ^ k` from coarse to fine and takes the first that has a point inside the
interval of numbers that round to the double; of two such points the nearer
one, and at equal distance the one that a `Tie` names.

Two written forms use it: `plainText`, always positional, and `Layout.text?`,
which changes to an exponent outside a range of magnitudes.
-/

namespace SpellText.Decimal

/-- Which of two neighbours is taken for a number half way between them. -/
inductive Tie
  | toEven
  | up
  deriving DecidableEq, Repr

/-- The neighbour to take for a number half way between `below` and `below + 1`. -/
def Tie.pick : Tie → Nat → Nat
  | toEven, below => below + below % 2
  | up, below => below + 1

/-- The numbers that round to `m · 2 ^ e`, in units of `2 ^ (e - 2)`: from
`4 * m` less the lower reach to `4 * m + 2`, the ends included when `m` is even. -/
structure Basin where
  mantissa : Nat
  exponent : Int

namespace Basin

/-- How far below the centre the basin reaches. Just above a power of two the
doubles below lie twice as close. -/
def lowerReach (b : Basin) : Nat :=
  if b.mantissa = Nat.pow 2 52 && -1074 < b.exponent then 1 else 2

/-- The grid point `n · 10 ^ k` lies in the basin. -/
def holds (b : Basin) (k : Int) (n : Nat) : Bool :=
  let unit := scaled 1 (b.exponent - 2) k
  let low := (4 * b.mantissa - b.lowerReach) * unit.num
  let high := (4 * b.mantissa + 2) * unit.num
  let x := n * unit.den
  if b.mantissa % 2 = 0 then low ≤ x && x ≤ high else low < x && x < high

/-- The grid point nearest to the centre among those of the grid `10 ^ k` that
lie in the basin. -/
def nearestOn (b : Basin) (tie : Tie) (k : Int) : Option Nat :=
  let v := scaled b.mantissa b.exponent k
  let below := v.floor
  let above := below + 1
  match b.holds k below, b.holds k above with
  | true, true =>
    let d := v.distance below
    let d' := v.distance above
    some (if d < d' then below else if d' < d then above else tie.pick below)
  | true, false => some below
  | false, true => some above
  | false, false => none

/-- The first hit on the grids `10 ^ k`, `10 ^ (k - 1)`, … -/
def search (b : Basin) (tie : Tie) : Nat → Int → Nat × Int
  | 0, k => ((scaled b.mantissa b.exponent k).floor, k)
  | steps + 1, k =>
    match b.nearestOn tie k with
    | some n => (n, k)
    | none => b.search tie steps (k - 1)

/-- A grid coarser than the basin itself. -/
def coarsest (b : Basin) : Int :=
  (((b.mantissa.log2 : Int) + b.exponent + 1) * 30103) / 100000 + 1

end Basin

/-- The shortest decimal `n · 10 ^ k` that reads back as `m · 2 ^ e`, with
`m` positive. Seventeen digits always suffice. -/
def shortest (tie : Tie) (m : Nat) (e : Int) : Nat × Int :=
  let b : Basin := ⟨m, e⟩
  b.search tie 20 b.coarsest

/-- The decimal `n · 10 ^ k` written positionally, without a point when it is whole. -/
def positional (n : Nat) (k : Int) : List Char :=
  if 0 ≤ k then digits n ++ List.replicate k.toNat '0' else fixedPoint (-k).toNat n

/-- The shortest positional text of a double; of two equally near the larger. -/
def plainText (x : Float) : List Char :=
  match Exact.ofFloat x with
  | .nan => ['N', 'a', 'N']
  | .infinite negative => signed negative ['i', 'n', 'f']
  | .finite negative m e =>
    signed negative <|
      if m = 0 then ['0']
      else
        let (n, k) := shortest .up m e
        positional n k

/-- How a data format writes doubles: powers of ten from `least` to `most` are
positional, outside of them stands an exponent, and `tie` decides between two
shortest decimals that are equally near. -/
structure Layout where
  least : Int
  most : Int
  tie : Tie

/-- The digits of `n` with a point after the first, if there are more. -/
def scientificDigits (n : Nat) : List Char :=
  match digits n with
  | [] => []
  | [d] => [d]
  | d :: ds => d :: '.' :: ds

/-- The text of a finite double: positional with at least one place, or with a
signed exponent. Not a number and the infinities have no text. -/
def Layout.text? (l : Layout) (x : Float) : Option (List Char) :=
  match Exact.ofFloat x with
  | .nan => none
  | .infinite _ => none
  | .finite negative m e =>
    some <| signed negative <|
      if m = 0 then ['0', '.', '0']
      else
        let (n, k) := shortest l.tie m e
        let power := k + (digits n).length - 1
        if l.least ≤ power && power ≤ l.most then
          if 0 ≤ k then positional n k ++ ['.', '0'] else positional n k
        else
          scientificDigits n ++ 'e' :: (if power < 0 then '-' else '+') :: digits power.natAbs

end SpellText.Decimal
