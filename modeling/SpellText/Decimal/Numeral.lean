import SpellText.Decimal.Exact
import SpellText.Decimal.Digits

/-!
# Numerals

The text of a number inside a tooltip: rounded to three places, without zeros
at the end of the fraction, and whole when the number is within `1e-6` of an
integer. It is made of digits, a point, a minus sign and the letters of the words
for infinity and for not a number (`isNumeric_numeralChars`).
-/

namespace SpellText.Decimal

/-- A text without the trailing copies of `c`. -/
def dropTrailing (c : Char) (s : List Char) : List Char :=
  (s.reverse.dropWhile (· == c)).reverse

/-- The text rounded to `places` digits after the point; a half goes to the
even digit. The sign of the number is kept even if it rounds to zero. -/
def fixed (places : Nat) (negative : Bool) (m : Nat) (e : Int) : List Char :=
  signed negative (fixedPoint places (scaled m e (-places)).roundEven)

/-- The distance from an integer below which a number counts as whole:
the double nearest to one millionth. -/
def wholeTolerance : Ratio := ⟨4722366482869645, Nat.pow 2 72⟩

/-- The number `m · 2 ^ e` lies closer to the integer `n` than the tolerance. -/
def isNearly (m : Nat) (e : Int) (n : Nat) : Bool :=
  let v := scaled m e 0
  v.distance n * wholeTolerance.den < wholeTolerance.num * v.den

/-- The text of a double with at most three places. -/
def numeralChars (x : Float) : List Char :=
  match Exact.ofFloat x with
  | .nan => ['N', 'a', 'N']
  | .infinite negative => signed negative ['i', 'n', 'f']
  | .finite negative m e =>
    let n := (scaled m e 0).roundUp
    if isNearly m e n then signed (negative && n != 0) (digits n)
    else dropTrailing '.' (dropTrailing '0' (fixed 3 negative m e))

/-- The text of a double with at most three places. -/
def numeral (x : Float) : String := String.ofList (numeralChars x)

/-! ## Characters of numerals -/

/-- A character of numerals. -/
def isNumeralChar (c : Char) : Bool :=
  c.isDigit || ['-', '.', 'N', 'a', 'i', 'n', 'f'].contains c

/-- All characters are such as numerals have. -/
def IsNumeric (s : List Char) : Prop := ∀ c ∈ s, isNumeralChar c = true

instance (s : List Char) : Decidable (IsNumeric s) :=
  decidable_of_iff (s.all isNumeralChar = true) List.all_eq_true

/-- A character that numerals do not have is not in a text made of theirs. -/
theorem IsNumeric.notMem {s : List Char} (h : IsNumeric s) {c : Char}
    (hc : isNumeralChar c = false) : c ∉ s :=
  fun hmem => Bool.false_ne_true (hc.symm.trans (h c hmem))

theorem IsNumeric.append {s t : List Char} (hs : IsNumeric s) (ht : IsNumeric t) :
    IsNumeric (s ++ t) :=
  List.forall_mem_append.2 ⟨hs, ht⟩

theorem IsNumeric.cons {s : List Char} (h : IsNumeric s) {c : Char}
    (hc : isNumeralChar c = true) : IsNumeric (c :: s) :=
  List.forall_mem_cons.2 ⟨hc, h⟩

theorem IsNumeric.signed {s : List Char} (h : IsNumeric s) (negative : Bool) :
    IsNumeric (signed negative s) := by
  cases negative with
  | false => exact h
  | true => exact h.cons (by decide)

theorem IsNumeric.dropTrailing {s : List Char} (h : IsNumeric s) (c : Char) :
    IsNumeric (dropTrailing c s) := fun d hd =>
  h d (List.mem_reverse.1 ((List.dropWhile_sublist (· == c)).subset (List.mem_reverse.1 hd)))

theorem isNumeric_digits (n : Nat) : IsNumeric (digits n) := fun c hc => by
  rw [isNumeralChar, Nat.isDigit_of_mem_toDigits (by decide) (by decide) hc, Bool.true_or]

theorem isNumeric_paddedDigits (width n : Nat) : IsNumeric (paddedDigits width n) := by
  refine .append (fun c hc => ?_) (isNumeric_digits n)
  rw [List.eq_of_mem_replicate hc]
  decide

theorem isNumeric_fixedPoint (places n : Nat) : IsNumeric (fixedPoint places n) := by
  unfold fixedPoint
  split
  · exact isNumeric_digits n
  · exact (isNumeric_digits _).append ((isNumeric_paddedDigits _ _).cons (by decide))

theorem isNumeric_numeralChars (x : Float) : IsNumeric (numeralChars x) := by
  unfold numeralChars
  split
  · decide
  · exact .signed (by decide) _
  · dsimp only
    split
    · exact (isNumeric_digits _).signed _
    · exact (((isNumeric_fixedPoint _ _).signed _).dropTrailing _).dropTrailing _

end SpellText.Decimal
