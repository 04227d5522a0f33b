import SpellText.Fault
import SpellText.Table

/-!
# Amounts

The number behind a placeholder. An amount has a flat part and parts that
scale with a stat, each a *term*: a label and one coefficient per rank of the
ability. The flat part stands under the empty label.

A term may hold fewer coefficients than there are ranks. Its last coefficient
then serves for all further ranks, and a term without coefficients is zero
everywhere: `Ranks.atRank cs j` is the coefficient at rank `j`. Sums fill up their
operands accordingly (`Ranks.extend`, `Ranks.add`), which changes no coefficient
(`Ranks.atRank_extend`).

Products and quotients take a single number on at least one side.
-/

namespace SpellText

/-! ## Coefficients by rank -/

namespace Ranks

/-- The coefficient that serves beyond the end: the last one, or zero. -/
def last (cs : List Float) : Float := cs.getLast?.getD 0.0

/-- The coefficient at rank `j`. -/
def atRank (cs : List Float) (j : Nat) : Float := cs[j]?.getD (last cs)

/-- The coefficients filled up to `n` ranks. -/
def extend (n : Nat) (cs : List Float) : List Float :=
  cs ++ List.replicate (n - cs.length) (last cs)

/-- Filling up gives the asked number of ranks, or more where there were more. -/
theorem length_extend (n : Nat) (cs : List Float) : (extend n cs).length = max n cs.length := by
  simp only [extend, List.length_append, List.length_replicate]
  omega

/-- Filling up changes no coefficient. -/
theorem atRank_extend (n : Nat) (cs : List Float) (j : Nat) :
    atRank (extend n cs) j = atRank cs j := by
  have hl : last (extend n cs) = last cs := by
    unfold last extend
    rw [List.getLast?_append]
    cases h : n - cs.length with
    | zero => simp
    | succ k =>
      simp [List.getLast?_replicate, last]
  unfold atRank
  rw [hl]
  rcases Nat.lt_or_ge j cs.length with h | h
  · simp [extend, List.getElem?_append_left h]
  · rw [extend, List.getElem?_append_right h, List.getElem?_replicate, List.getElem?_eq_none h]
    split <;> rfl

/-- Both sequences filled up to the longer one. -/
def align (xs ys : List Float) : List Float × List Float :=
  let n := max xs.length ys.length
  (extend n xs, extend n ys)

/-- The sum rank by rank. -/
def add (xs ys : List Float) : List Float :=
  let (xs, ys) := align xs ys
  List.zipWith (· + ·) xs ys

/-- The coefficients of the next rank, the last one repeated. -/
def next : List Float → List Float
  | [] => []
  | x :: xs => xs ++ [last (x :: xs)]

end Ranks

/-! ## Terms -/

/-- A flat part and parts that scale with stats, by label. -/
structure Amount where
  /-- The terms in the order in which they came. -/
  terms : Table (List Float)

namespace Amount

/-- The label of the flat part. -/
def flatLabel : String := ""

/-- The amount without terms. -/
def empty : Amount := ⟨.empty⟩

instance : Inhabited Amount := ⟨empty⟩

/-- The coefficients `cs` under `label`. -/
def ofTerm (label : String) (cs : List Float) : Amount := ⟨.single label cs⟩

/-- A flat amount by rank. -/
def ofRanks (cs : List Float) : Amount := ofTerm flatLabel cs

/-- A single number. -/
def ofNumber (x : Float) : Amount := ofRanks [x]

/-- The number zero. -/
def zero : Amount := ofNumber 0.0

/-- The coefficients under `label`. -/
def term? (a : Amount) (label : String) : Option (List Float) := a.terms.get? label

/-- The coefficients of the flat part. -/
def flat? (a : Amount) : Option (List Float) := a.term? flatLabel

/-- The labels in order. -/
def labels (a : Amount) : List String := a.terms.keys

/-- The number, when the amount is one coefficient of one term. -/
def scalar? (a : Amount) : Option Float :=
  match a.terms.entries with
  | [(_, [x])] => some x
  | _ => none

/-- The number of ranks: the length of the longest term, and at least one. -/
def length (a : Amount) : Nat := (a.terms.entries.map (·.2.length)).foldr max 1

/-- Apply `f` to every term as a whole. -/
def mapTerms (f : List Float → List Float) (a : Amount) : Amount := ⟨a.terms.map f⟩

/-- Apply `f` to every coefficient. -/
def map (f : Float → Float) (a : Amount) : Amount := a.mapTerms (List.map f)

/-- The amount with every term filled up to the number of ranks. -/
def padded (a : Amount) : Amount := a.mapTerms (Ranks.extend a.length)

/-! ## Arithmetic -/

/-- Add `cs` under `label`. -/
def addTerm (label : String) (cs : List Float) (a : Amount) : Amount :=
  ⟨a.terms.update label fun
    | none => cs
    | some present => Ranks.add present cs⟩

/-- Add the terms of `b`, every coefficient multiplied by `sign`. -/
def combine (sign : Float) (a b : Amount) : Amount :=
  b.terms.entries.foldl (fun sum e => sum.addTerm e.1 (e.2.map (· * sign))) a

/-- The sum of two amounts. -/
def add (a b : Amount) : Amount := combine 1.0 a b

/-- The difference of two amounts. -/
def sub (a b : Amount) : Amount := combine (-1.0) a b

/-- The amount with every sign turned. -/
def neg (a : Amount) : Amount := a.map fun x => -x

instance : Add Amount := ⟨add⟩

instance : Sub Amount := ⟨sub⟩

instance : Neg Amount := ⟨neg⟩

/-- The amount with every coefficient multiplied by `factor`. -/
def scale (factor : Float) (a : Amount) : Amount := a.map (· * factor)

/-- The product; one side has to be a single number. -/
def times (a b : Amount) : Except Fault Amount :=
  match b.scalar?, a.scalar? with
  | some factor, _ => .ok (a.scale factor)
  | none, some factor => .ok (b.scale factor)
  | none, none => .error .nonScalarProduct

/-- The quotient; the divisor has to be a single number other than zero. -/
def dividedBy (a b : Amount) : Except Fault Amount :=
  match b.scalar? with
  | none => .error .nonScalarDivisor
  | some divisor =>
    if divisor == 0.0 then .error .divisionByZero else .ok (a.map (· / divisor))

/-- The amounts have the same labels, in any order, with coefficients that
compare equal. -/
def sameAs (a b : Amount) : Bool :=
  a.terms.size == b.terms.size &&
    a.terms.entries.all fun e =>
      match b.term? e.1 with
      | some cs => e.2 == cs
      | none => false

end Amount

end SpellText
