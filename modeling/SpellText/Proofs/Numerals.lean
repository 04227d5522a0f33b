import Mathlib.Algebra.Order.Field.Rat
import Mathlib.Data.List.DropRight
import Mathlib.Tactic.FieldSimp
import Mathlib.Tactic.Linarith
import Mathlib.Tactic.NormNum
import Mathlib.Tactic.Positivity
import Mathlib.Tactic.Ring
import SpellText.Proofs.Grammar.Literal
import SpellText.Decimal.Numeral

/-!
# Canonical numerals

The text of a finite double is its exact value, rounded to thousandths
(`Decimal.IsNearestEven`), as a numeral without needless characters (`Decimal.Canonical`) :
digits that do not begin with a zero, places that do not end with one, no point without
places, a sign in front of negative numbers only.

There is one exception. The sign is kept when a negative number is rounded to zero, unless
the number is nearer to zero than `Decimal.wholeTolerance` and so counts as whole : the
text of -0.0001 is `-0` (`Decimal.exists_signed_zero`). `Decimal.numeralChars_canonical`
says which text a double has in either case, and that the numerals of whole numbers are
those that three places lead to.
-/

namespace SpellText.Decimal

open Text (digitsValue)

/-! ## Exact values -/

/-- The value of the fraction. -/
def Ratio.value (r : Ratio) : ℚ := r.num / r.den

/-- The number `m · 2 ^ e`. -/
def magnitude (m : Nat) (e : Int) : ℚ := m * 2 ^ e

/-- The number that a finite double stands for. -/
def Exact.value? : Exact → Option ℚ
  | .finite negative m e => some (if negative then -magnitude m e else magnitude m e)
  | .nan => none
  | .infinite _ => none

theorem magnitude_nonneg (m : Nat) (e : Int) : 0 ≤ magnitude m e :=
  mul_nonneg m.cast_nonneg (zpow_nonneg zero_le_two e)

/-- Of the powers with an exponent and with its opposite one is trivial. -/
theorem pow_toNat_div (b : ℚ) (k : Int) :
    b ^ k.toNat / b ^ (-k).toNat = b ^ k := by
  rcases Int.le_total 0 k with h | h
  · obtain ⟨n, rfl⟩ := Int.eq_ofNat_of_zero_le h
    simp
  · obtain ⟨n, hn⟩ := Int.eq_ofNat_of_zero_le (Int.neg_nonneg_of_nonpos h)
    obtain rfl : k = -n := by omega
    simp

theorem value_scaled (m : Nat) (e k : Int) :
    (scaled m e k).value = magnitude m e * 10 ^ (-k) := by
  have h2 := pow_toNat_div 2 e
  have h10 := pow_toNat_div 10 (-k)
  rw [neg_neg] at h10
  rw [Ratio.value, magnitude, ← h2, ← h10]
  simp only [scaled, Nat.pow_eq, Nat.cast_mul, Nat.cast_pow, Nat.cast_ofNat]
  field_simp

/-! ## Rounding -/

/-- The integer `n` is nearest to `r`, and even where another one is equally near. -/
structure IsNearestEven (r : ℚ) (n : ℤ) : Prop where
  near : |r - n| ≤ 1 / 2
  even : |r - n| = 1 / 2 → Even n

namespace IsNearestEven

variable {r : ℚ} {n n' : ℤ}

theorem neg (h : IsNearestEven r n) : IsNearestEven (-r) (-n) := by
  have hs : |-r - ((-n : ℤ) : ℚ)| = |r - n| := by
    rw [Int.cast_neg, ← neg_sub', abs_neg]
  exact ⟨hs ▸ h.near, fun he => (h.even (hs ▸ he)).neg⟩

/-- An integer less than a half away is the nearest one. -/
theorem eq_of_lt (h : IsNearestEven r n) (hn : |r - n'| < 1 / 2) : n = n' := by
  have hlt : |(n : ℚ) - n'| < 1 := calc
    |(n : ℚ) - n'| ≤ |n - r| + |r - n'| := abs_sub_le _ _ _
    _ = |r - n| + |r - n'| := by rw [abs_sub_comm]
    _ < 1 := by linarith [h.near]
  have hlt' : |n - n'| < 1 := by exact_mod_cast hlt
  have := Int.abs_lt_one_iff.1 hlt'
  omega

/-- There is one nearest number, of two the even one. -/
theorem unique (h : IsNearestEven r n) (h' : IsNearestEven r n') : n = n' := by
  rcases h'.near.lt_or_eq with hlt | he'
  · exact h.eq_of_lt hlt
  · rcases h.near.lt_or_eq with hlt | he
    · exact (h'.eq_of_lt hlt).symm
    · -- Both are half-way, so that they are even and at most one apart.
      obtain ⟨a, ha⟩ := h.even he
      obtain ⟨b, hb⟩ := h'.even he'
      have hle : |(n : ℚ) - n'| ≤ 1 := calc
        |(n : ℚ) - n'| ≤ |n - r| + |r - n'| := abs_sub_le _ _ _
        _ = |r - n| + |r - n'| := by rw [abs_sub_comm]
        _ = 1 := by rw [he, he']; norm_num
      have hle' : |n - n'| ≤ 1 := by exact_mod_cast hle
      have := abs_le.1 hle'
      omega

theorem existsUnique {p : ℤ → Prop} (h : IsNearestEven r n) (hp : p n) :
    ∃! n, IsNearestEven r n ∧ p n :=
  ⟨n, ⟨h, hp⟩, fun _ h' => h'.1.unique h⟩

end IsNearestEven

/-- Rounding a ratio gives the nearest number, of two the even one. -/
theorem Ratio.isNearestEven_roundEven {r : Ratio} (h : 0 < r.den) :
    IsNearestEven r.value r.roundEven := by
  have hd : (0 : ℚ) < r.den := by exact_mod_cast h
  have hnum : (r.num : ℚ) = r.den * (r.num / r.den : ℕ) + (r.num % r.den : ℕ) := by
    exact_mod_cast (Nat.div_add_mod r.num r.den).symm
  generalize hq : r.num / r.den = q at hnum
  generalize ht : r.num % r.den = t at hnum
  have hlt : t < r.den := ht ▸ Nat.mod_lt _ h
  have hv : r.value = q + t / r.den := by
    rw [Ratio.value, hnum]
    field_simp
  have hround : r.roundEven
      = if 2 * t < r.den then q else if r.den < 2 * t then q + 1 else q + q % 2 := by
    rw [roundEven, hq, ht]
  rw [hv, hround]
  rcases Nat.lt_trichotomy (2 * t) r.den with hlow | hmid | hhigh
  · have hf : (t : ℚ) / r.den < 1 / 2 := by
      rw [div_lt_div_iff₀ hd two_pos]
      exact_mod_cast (by omega : t * 2 < 1 * r.den)
    have hf0 : 0 ≤ (t : ℚ) / r.den := by positivity
    have habs : |(q : ℚ) + t / r.den - (q : ℤ)| = t / r.den := by
      rw [Int.cast_natCast, add_sub_cancel_left, abs_of_nonneg hf0]
    rw [if_pos hlow]
    exact ⟨habs.trans_le hf.le, fun he => absurd (habs.symm.trans he) hf.ne⟩
  · have hf : (t : ℚ) / r.den = 1 / 2 := by
      rw [div_eq_div_iff hd.ne' two_ne_zero]
      exact_mod_cast (by omega : t * 2 = 1 * r.den)
    rw [if_neg (by omega), if_neg (by omega), hf]
    rcases Nat.mod_two_eq_zero_or_one q with h0 | h1
    · rw [h0]
      refine ⟨?_, fun _ => ?_⟩
      · norm_num
      · rw [Nat.add_zero]
        exact_mod_cast Nat.even_iff.2 h0
    · rw [h1]
      refine ⟨?_, fun _ => ?_⟩
      · have hs : (q : ℚ) + 1 / 2 - ((q + 1 : ℕ) : ℤ) = -(1 / 2) := by
          push_cast
          ring
        rw [hs, abs_neg]
        norm_num
      · exact_mod_cast Nat.even_iff.2 (by omega : (q + 1) % 2 = 0)
  · have hf : 1 / 2 < (t : ℚ) / r.den := by
      rw [div_lt_div_iff₀ two_pos hd]
      exact_mod_cast (by omega : 1 * r.den < t * 2)
    have hf1 : (t : ℚ) / r.den < 1 := by
      rw [div_lt_one hd]
      exact_mod_cast hlt
    have habs : |(q : ℚ) + t / r.den - ((q + 1 : ℕ) : ℤ)| = 1 - t / r.den := by
      have hs : (q : ℚ) + t / r.den - ((q + 1 : ℕ) : ℤ) = -(1 - t / r.den) := by
        push_cast
        ring
      rw [hs, abs_neg, abs_of_nonneg (by linarith)]
    rw [if_neg (by omega), if_pos hhigh]
    exact ⟨by rw [habs]; linarith, fun he => by rw [habs] at he; linarith⟩

/-- A number below a half is rounded up to zero. -/
theorem Ratio.roundUp_eq_zero {r : Ratio} (hd : 0 < r.den) (h : r.value < 1 / 2) :
    r.roundUp = 0 := by
  have hd' : (0 : ℚ) < r.den := by exact_mod_cast hd
  rw [Ratio.value, div_lt_div_iff₀ hd' two_pos] at h
  have hn : r.num * 2 < 1 * r.den := by exact_mod_cast h
  exact Nat.div_eq_of_lt (by omega)

/-- The number is nearer to the integer than the tolerance. -/
theorem isNearly_iff {m : Nat} {e : Int} {n : Nat} :
    isNearly m e n = true ↔ |magnitude m e - n| < wholeTolerance.value := by
  have hd : 0 < (scaled m e 0).den := scaled_den_pos m e 0
  have hd' : (0 : ℚ) < (scaled m e 0).den := by exact_mod_cast hd
  have ht : (0 : ℚ) < wholeTolerance.den := by norm_num [wholeTolerance]
  have hv : magnitude m e = (scaled m e 0).num / (scaled m e 0).den := by
    have := value_scaled m e 0
    simpa [Ratio.value] using this.symm
  have hdist : ((scaled m e 0).distance n : ℚ)
      = |((scaled m e 0).num : ℚ) - n * (scaled m e 0).den| := by
    rw [Ratio.distance]
    rcases Nat.le_total (n * (scaled m e 0).den) (scaled m e 0).num with hle | hle
    · have hle' : (n : ℚ) * (scaled m e 0).den ≤ (scaled m e 0).num := by exact_mod_cast hle
      rw [Nat.sub_eq_zero_of_le hle, Nat.add_zero, Nat.cast_sub hle, Nat.cast_mul,
        abs_of_nonneg (sub_nonneg.2 hle')]
    · have hle' : ((scaled m e 0).num : ℚ) ≤ n * (scaled m e 0).den := by exact_mod_cast hle
      rw [Nat.sub_eq_zero_of_le hle, Nat.zero_add, Nat.cast_sub hle, Nat.cast_mul,
        abs_sub_comm, abs_of_nonneg (sub_nonneg.2 hle')]
  have habs : |magnitude m e - n| = (scaled m e 0).distance n / (scaled m e 0).den := by
    rw [hdist, hv, ← abs_of_pos hd', ← abs_div, abs_of_pos hd']
    congr 1
    field_simp
  rw [isNearly, decide_eq_true_iff, habs, Ratio.value, div_lt_div_iff₀ hd' ht]
  exact_mod_cast Iff.rfl

/-! ## Texts of numbers -/

/-- The digits of a whole number and those behind the point, with a sign. -/
def written (negative : Bool) (whole places : List Char) : List Char :=
  signed negative (whole ++ if places = [] then [] else '.' :: places)

/-- The number with the given digits in front of the point and behind it. -/
def valueOf (whole places : List Char) : ℚ :=
  digitsValue whole + digitsValue places / 10 ^ places.length

/-- The text is the numeral of `r` without needless characters. -/
def Canonical (r : ℚ) (s : List Char) : Prop :=
  ∃ whole places, s = written (r < 0) whole places ∧ |r| = valueOf whole places ∧
    Digits whole ∧ whole ≠ [] ∧ (whole.head? = some '0' → whole = ['0']) ∧
    Digits places ∧ places.getLast? ≠ some '0'

/-! ### Digits -/

theorem digits_digits (n : Nat) : Digits (digits n) := fun _ hc =>
  Nat.isDigit_of_mem_toDigits (by decide) (by decide) hc

/-- The digits of a number are worth the number. -/
theorem digitsValue_digits (n : Nat) : digitsValue (digits n) = n :=
  Nat.ofDigitChars_ten_toDigits

/-- A zero in front is the only digit. -/
theorem digits_of_head (n : Nat) (h : (digits n).head? = some '0') : digits n = ['0'] := by
  induction n using Nat.strong_induction_on with
  | _ n ih =>
    by_cases hn : n < 10
    · rw [digits, Nat.toDigits_of_lt_base hn] at h ⊢
      rw [Option.some.inj h]
    · have hstep : digits n = digits (n / 10) ++ [(n % 10).digitChar] :=
        Nat.toDigits_of_base_le (by decide) (by omega)
      have hne : digits (n / 10) ≠ [] := Nat.toDigits_ne_nil
      rw [hstep, List.head?_append_of_ne_nil _ hne] at h
      have h0 := congrArg digitsValue (ih (n / 10) (by omega) h)
      rw [digitsValue_digits] at h0
      have : n / 10 = 0 := h0
      omega

theorem digitsValue_replicate_append (k : Nat) (ds : List Char) :
    digitsValue (List.replicate k '0' ++ ds) = digitsValue ds := by
  have h : digitsValue (List.replicate k '0' ++ ds)
      = Nat.ofDigitChars 10 (List.replicate k '0' ++ ds) 0 := rfl
  rw [h, Nat.ofDigitChars_append, Nat.ofDigitChars_replicate_zero, Nat.mul_zero]
  rfl

/-- Zeros behind are worth a power of ten. -/
theorem digitsValue_append_replicate (ds : List Char) (k : Nat) :
    digitsValue (ds ++ List.replicate k '0') = 10 ^ k * digitsValue ds := by
  have h : digitsValue (ds ++ List.replicate k '0')
      = Nat.ofDigitChars 10 (ds ++ List.replicate k '0') 0 := rfl
  rw [h, Nat.ofDigitChars_append, Nat.ofDigitChars_replicate_zero]
  rfl

theorem digits_paddedDigits (width n : Nat) : Digits (paddedDigits width n) := by
  intro c hc
  rcases List.mem_append.1 hc with hc | hc
  · rw [List.eq_of_mem_replicate hc]
    decide
  · exact digits_digits n c hc

/-- Padded digits are worth the number. -/
theorem digitsValue_paddedDigits (width n : Nat) : digitsValue (paddedDigits width n) = n := by
  rw [paddedDigits, digitsValue_replicate_append, digitsValue_digits]

theorem length_paddedDigits {width n : Nat} (hw : 0 < width) (h : n < 10 ^ width) :
    (paddedDigits width n).length = width := by
  have hle : (digits n).length ≤ width := (Nat.length_toDigits_le_iff (by decide) hw).2 h
  rw [paddedDigits, List.length_append, List.length_replicate]
  omega

/-! ### Characters at the end -/

theorem dropTrailing_of_getLast? {c : Char} {s : List Char} (h : s.getLast? ≠ some c) :
    dropTrailing c s = s := by
  refine List.rdropWhile_eq_self_iff.2 fun hs he => h ?_
  rw [List.getLast?_eq_some_getLast hs, eq_of_beq he]

theorem getLast?_dropTrailing (c : Char) (s : List Char) :
    (dropTrailing c s).getLast? ≠ some c := by
  intro h
  have hhead := List.head?_dropWhile_not (· == c) s.reverse
  rw [dropTrailing, List.getLast?_reverse] at h
  rw [h] at hhead
  exact absurd (beq_self_eq_true c) (Bool.not_eq_true _ ▸ hhead)

/-- What is dropped at the end of two texts is dropped from the first only if nothing is left of
the second. -/
theorem dropTrailing_append (c : Char) (s t : List Char) :
    dropTrailing c (s ++ t)
      = if dropTrailing c t = [] then dropTrailing c s else s ++ dropTrailing c t := by
  simp only [dropTrailing, List.reverse_append, List.dropWhile_append, List.isEmpty_iff,
    List.reverse_eq_nil_iff]
  split
  · rfl
  · rw [List.reverse_append, List.reverse_reverse]

/-- What is dropped are copies of the character. -/
theorem exists_dropTrailing_append (c : Char) (s : List Char) :
    ∃ k, s = dropTrailing c s ++ List.replicate k c := by
  refine ⟨(s.reverse.takeWhile (· == c)).length, ?_⟩
  have hrun : s.reverse.takeWhile (· == c)
      = List.replicate (s.reverse.takeWhile (· == c)).length c :=
    List.eq_replicate_of_mem fun d hd => eq_of_beq (List.mem_takeWhile_imp (p := (· == c)) hd)
  rw [dropTrailing, ← List.reverse_replicate, ← hrun, ← List.reverse_append,
    List.takeWhile_append_dropWhile, List.reverse_reverse]

theorem Digits.dropTrailing {ds : List Char} (h : Digits ds) (c : Char) :
    Digits (dropTrailing c ds) := fun d hd =>
  h d (List.mem_reverse.1 ((List.dropWhile_sublist _).subset (List.mem_reverse.1 hd)))

theorem Digits.getLast?_ne {ds : List Char} (h : Digits ds) : ds.getLast? ≠ some '.' := by
  intro he
  have := h '.' (List.mem_of_getLast? he)
  exact absurd this (by decide)

theorem signed_append (negative : Bool) (s t : List Char) :
    signed negative (s ++ t) = signed negative s ++ t := by
  cases negative <;> rfl

/-- A text keeps its sign and its whole digits when its end is dropped. -/
theorem dropTrailing_written {negative : Bool} {whole places : List Char} (hw : Digits whole)
    (hne : whole ≠ []) (hp : Digits places) :
    dropTrailing '.' (dropTrailing '0' (signed negative (whole ++ '.' :: places)))
      = written negative whole (dropTrailing '0' places) := by
  have hlast : (signed negative whole).getLast? ≠ some '.' := by
    have : (signed negative whole).getLast? = whole.getLast? := by
      cases negative
      · rfl
      · exact List.getLast?_cons_of_ne_nil hne
    rw [this]
    exact hw.getLast?_ne
  have hsplit : signed negative (whole ++ '.' :: places)
      = (signed negative whole ++ ['.']) ++ places := by
    rw [signed_append, List.append_assoc, List.singleton_append]
  rw [hsplit, dropTrailing_append, written]
  by_cases he : dropTrailing '0' places = []
  · have hzero : (signed negative whole ++ ['.']).getLast? ≠ some '0' := by
      rw [List.getLast?_concat]
      decide
    have hpoint : dropTrailing '.' ['.'] = [] := rfl
    rw [if_pos he, if_pos he, List.append_nil, dropTrailing_of_getLast? hzero,
      dropTrailing_append, if_pos hpoint, dropTrailing_of_getLast? hlast]
  · have hd := hp.dropTrailing '0'
    rw [if_neg he, if_neg he, dropTrailing_append, dropTrailing_of_getLast? hd.getLast?_ne,
      if_neg he, signed_append, List.append_assoc, List.singleton_append]

/-- The value of places does not depend on zeros at their end. -/
theorem valueOf_dropTrailing (whole places : List Char) :
    valueOf whole (dropTrailing '0' places) = valueOf whole places := by
  obtain ⟨k, hk⟩ := exists_dropTrailing_append '0' places
  generalize dropTrailing '0' places = kept at hk
  subst hk
  rw [valueOf, valueOf, digitsValue_append_replicate, List.length_append, List.length_replicate,
    pow_add]
  push_cast
  field_simp

/-! ## Numerals with three places -/

/-- The text of a number of thousandths with all three places, its end dropped. -/
def threePlaces (negative : Bool) (n : Nat) : List Char :=
  dropTrailing '.' (dropTrailing '0' (signed negative (fixedPoint 3 n)))

/-- Three places are written as whole digits and a fraction without needless zeros. -/
theorem threePlaces_eq (negative : Bool) (n : Nat) : threePlaces negative n
    = written negative (digits (n / 1000)) (dropTrailing '0' (paddedDigits 3 (n % 1000))) :=
  dropTrailing_written (digits_digits _) Nat.toDigits_ne_nil (digits_paddedDigits 3 _)

/-- Written in three places a number of thousandths is worth that many. -/
theorem valueOf_thousandths (n : Nat) :
    valueOf (digits (n / 1000)) (dropTrailing '0' (paddedDigits 3 (n % 1000))) = n / 1000 := by
  have hlen : (paddedDigits 3 (n % 1000)).length = 3 :=
    length_paddedDigits (by decide) (Nat.mod_lt n (by decide))
  have hn : (n : ℚ) = 1000 * (n / 1000 : ℕ) + (n % 1000 : ℕ) := by
    exact_mod_cast (Nat.div_add_mod n 1000).symm
  rw [valueOf_dropTrailing, valueOf, digitsValue_digits, digitsValue_paddedDigits, hlen, hn]
  ring

/-- A number of thousandths is written canonically where its sign is that of the number. -/
theorem canonical_threePlaces {negative : Bool} {n : Nat} {r : ℚ} (hr : |r| = n / 1000)
    (hs : negative = decide (r < 0)) : Canonical r (threePlaces negative n) :=
  ⟨digits (n / 1000), dropTrailing '0' (paddedDigits 3 (n % 1000)),
    hs ▸ threePlaces_eq negative n, hr.trans (valueOf_thousandths n).symm, digits_digits _,
    Nat.toDigits_ne_nil, digits_of_head _, (digits_paddedDigits 3 _).dropTrailing '0',
    getLast?_dropTrailing '0' _⟩

/-- Of whole thousands no places are left. -/
theorem threePlaces_thousands (negative : Bool) (n : Nat) :
    threePlaces negative (1000 * n) = signed negative (digits n) := by
  have hplaces : dropTrailing '0' (paddedDigits 3 (1000 * n % 1000)) = [] := by
    rw [Nat.mul_mod_right]
    rfl
  rw [threePlaces_eq, hplaces, Nat.mul_div_cancel_left n (by decide), written, if_pos rfl,
    List.append_nil]

/-! ## Texts of doubles -/

/-- The thousandths that a number is rounded to. -/
theorem isNearestEven_thousandths (m : Nat) (e : Int) :
    IsNearestEven (1000 * magnitude m e) (scaled m e (-3)).roundEven := by
  have h := Ratio.isNearestEven_roundEven (scaled_den_pos m e (-3))
  have hv : (scaled m e (-3)).value = 1000 * magnitude m e := by
    rw [value_scaled]
    norm_num
    ring
  rwa [hv] at h

/-- A number that counts as whole is rounded to that whole number. -/
theorem roundEven_of_isNearly {m : Nat} {e : Int} {n : Nat} (h : isNearly m e n = true) :
    (scaled m e (-3)).roundEven = 1000 * n := by
  have hlt := isNearly_iff.1 h
  have ht : wholeTolerance.value < 1 / 2000 := by norm_num [wholeTolerance, Ratio.value]
  have hnear : |1000 * magnitude m e - (1000 * n : ℤ)| < 1 / 2 := by
    have hs : 1000 * magnitude m e - (1000 * n : ℤ) = 1000 * (magnitude m e - n) := by
      push_cast
      ring
    rw [hs, abs_mul, abs_of_pos (by norm_num : (0 : ℚ) < 1000)]
    linarith
  exact_mod_cast (isNearestEven_thousandths m e).eq_of_lt hnear

/-- A finite double is written as a whole number if it is nearly one, and in three places
otherwise. -/
theorem numeralChars_of_finite {x : Float} {negative : Bool} {m : Nat} {e : Int}
    (h : Exact.ofFloat x = .finite negative m e) :
    numeralChars x = if isNearly m e (scaled m e 0).roundUp then
        signed (negative && (scaled m e 0).roundUp != 0) (digits (scaled m e 0).roundUp)
      else threePlaces negative (scaled m e (-3)).roundEven := by
  rw [numeralChars, h]
  rfl

/-- A number that is rounded to zero counts as whole where it is below the tolerance. -/
theorem isNearly_roundUp_iff {m : Nat} {e : Int} (h : (scaled m e (-3)).roundEven = 0) :
    isNearly m e (scaled m e 0).roundUp = true ↔ magnitude m e < wholeTolerance.value := by
  have hnear := (isNearestEven_thousandths m e).near
  rw [h, Nat.cast_zero, Int.cast_zero, sub_zero] at hnear
  have hhalf : (scaled m e 0).value < 1 / 2 := by
    rw [value_scaled, neg_zero, zpow_zero, mul_one]
    linarith [(abs_le.1 hnear).2]
  rw [Ratio.roundUp_eq_zero (scaled_den_pos m e 0) hhalf, isNearly_iff, Nat.cast_zero, sub_zero,
    abs_of_nonneg (magnitude_nonneg m e)]

/-- Every finite double is written with three places, and with its sign unless it is rounded
to zero and below the tolerance. -/
theorem exists_threePlaces {x : Float} {negative : Bool} {m : Nat} {e : Int}
    (h : Exact.ofFloat x = .finite negative m e) :
    ∃ sign : Bool, numeralChars x = threePlaces sign (scaled m e (-3)).roundEven ∧
      (sign = true ↔ negative = true ∧
        ((scaled m e (-3)).roundEven = 0 → wholeTolerance.value ≤ magnitude m e)) := by
  rw [numeralChars_of_finite h]
  by_cases hn : isNearly m e (scaled m e 0).roundUp = true
  · have hk := roundEven_of_isNearly hn
    refine ⟨negative && (scaled m e 0).roundUp != 0, ?_, ?_⟩
    · rw [if_pos hn, hk, threePlaces_thousands]
    · rw [Bool.and_eq_true, bne_iff_ne]
      refine and_congr_right fun _ => ⟨fun hu h0 => absurd (by omega) hu, fun h0 hu => ?_⟩
      have hz : (scaled m e (-3)).roundEven = 0 := by omega
      exact absurd ((isNearly_roundUp_iff hz).1 hn) (not_lt.2 (h0 hz))
  · rw [if_neg hn]
    exact ⟨negative, rfl, (and_iff_left fun hz =>
      not_lt.1 fun hlt => hn ((isNearly_roundUp_iff hz).2 hlt)).symm⟩

/-- Every double has a numeral, also those that are not finite. -/
theorem numeralChars_ne_nil (x : Float) : numeralChars x ≠ [] := by
  cases h : Exact.ofFloat x with
  | nan => simp [numeralChars, h]
  | infinite negative => cases negative <;> simp [numeralChars, h, signed]
  | finite negative m e =>
    obtain ⟨sign, hs, -⟩ := exists_threePlaces h
    rw [hs, threePlaces_eq, written, signed_append]
    cases sign with
    | false => exact List.append_ne_nil_of_left_ne_nil Nat.toDigits_ne_nil _
    | true => exact List.append_ne_nil_of_left_ne_nil (List.cons_ne_nil _ _) _

/-- Near an integer the numeral of the integer is what three places lead to, but for the
sign of a number that is rounded to zero. -/
theorem whole_eq_threePlaces_iff {m : Nat} {e : Int} {n : Nat} (negative : Bool)
    (h : isNearly m e n = true) :
    signed (negative && n != 0) (digits n) = threePlaces negative (scaled m e (-3)).roundEven ↔
      ¬ (negative = true ∧ n = 0) := by
  rw [roundEven_of_isNearly h, threePlaces_thousands]
  cases negative with
  | false => simp
  | true =>
    by_cases hn : n = 0
    · subst hn
      simp [signed]
    · have hne : (n != 0) = true := bne_iff_ne.2 hn
      simp [hn, hne]

/-- The canonical numeral has a sign if and only if what is printed is below zero. -/
theorem canonical_signed {sign : Bool} {n : ℤ} (hs : sign = true ↔ n < 0) :
    Canonical (n / 1000) (threePlaces sign n.natAbs) := by
  refine canonical_threePlaces ?_ ?_
  · rw [abs_div, abs_of_pos (by norm_num : (0 : ℚ) < 1000), Nat.cast_natAbs, Int.cast_abs]
  · rw [Bool.eq_iff_iff, decide_eq_true_iff, hs, div_lt_iff₀ (by norm_num), zero_mul]
    exact Int.cast_lt_zero.symm

/-- A finite double is written as the canonical numeral of its value, rounded to
thousandths, unless it is rounded to zero from below without counting as whole. Then a
sign stands in front of the zero. Numbers that count as whole are written as three places
would have it, but for the sign of a number that is rounded to zero. -/
theorem numeralChars_canonical {x : Float} {v : ℚ} (h : (Exact.ofFloat x).value? = some v) :
    (∃! n : ℤ, IsNearestEven (1000 * v) n ∧
      (¬ (n = 0 ∧ v ≤ -wholeTolerance.value) → Canonical (n / 1000) (numeralChars x)) ∧
      (n = 0 ∧ v ≤ -wholeTolerance.value → numeralChars x = ['-', '0'])) ∧
    ∀ negative m e n, Exact.ofFloat x = .finite negative m e → isNearly m e n = true →
      (signed (negative && n != 0) (digits n)
          = dropTrailing '.' (dropTrailing '0' (fixed 3 negative m e)) ↔
        ¬ (negative = true ∧ n = 0)) := by
  refine ⟨?_, fun negative m e n _ hn => whole_eq_threePlaces_iff negative hn⟩
  obtain ⟨negative, m, e, hx⟩ : ∃ negative m e, Exact.ofFloat x = .finite negative m e := by
    cases hx : Exact.ofFloat x with
    | finite negative m e => exact ⟨negative, m, e, rfl⟩
    | nan => rw [hx] at h; cases h
    | infinite => rw [hx] at h; cases h
  obtain rfl : (if negative then -magnitude m e else magnitude m e) = v := by
    rw [hx] at h
    exact Option.some.inj h
  obtain ⟨sign, htext, hsign⟩ := exists_threePlaces hx
  have hround := isNearestEven_thousandths m e
  have hpos := magnitude_nonneg m e
  have htol : 0 < wholeTolerance.value := by norm_num [wholeTolerance, Ratio.value]
  rw [htext]
  generalize (scaled m e (-3)).roundEven = k at hround hsign
  cases negative with
  | false =>
    have hs : sign = true ↔ (k : ℤ) < 0 := by
      rw [hsign]
      simp
    refine hround.existsUnique ⟨fun _ => canonical_signed hs, fun he => ?_⟩
    exact absurd (hpos.trans he.2) (by linarith)
  | true =>
    have hneg : IsNearestEven (1000 * -magnitude m e) (-k) := by
      rw [mul_neg]
      exact hround.neg
    refine hneg.existsUnique ⟨fun he => ?_, fun ⟨hk, hle⟩ => ?_⟩
    · have hs : sign = true ↔ (-k : ℤ) < 0 := by
        rw [hsign, and_iff_right rfl]
        refine ⟨fun h0 => ?_, fun hk h0 => by omega⟩
        by_contra hk
        have hk0 : k = 0 := by omega
        exact he ⟨by omega, neg_le_neg (h0 hk0)⟩
      have := canonical_signed hs
      rwa [Int.natAbs_neg, Int.natAbs_natCast] at this
    · obtain rfl : k = 0 := by omega
      rw [hsign.2 ⟨rfl, fun _ => neg_le_neg_iff.1 hle⟩]
      rfl

/-- Nearly one rounds up to a numeral without places. -/
theorem numeralChars_canonical_carry :
    (Exact.ofFloat 0.9996).value? = some (magnitude 9003596375039096 (-53)) ∧
      Canonical 1 (numeralChars 0.9996) := by
  have hx : Exact.ofFloat 0.9996 = .finite false 9003596375039096 (-53) := by decide +kernel
  have hv : (Exact.ofFloat 0.9996).value? = some (magnitude 9003596375039096 (-53)) := by
    rw [hx]
    rfl
  refine ⟨hv, ?_⟩
  obtain ⟨⟨n, ⟨hn, hc, -⟩, -⟩, -⟩ := numeralChars_canonical hv
  obtain rfl : n = 1000 := hn.eq_of_lt (by norm_num [magnitude, abs_lt])
  have := hc (by decide)
  norm_num at this
  exact this

/-- A canonical numeral of a number that is not negative has no sign. -/
theorem Canonical.head?_ne {r : ℚ} {s : List Char} (h : Canonical r s) (hr : 0 ≤ r) :
    s.head? ≠ some '-' := by
  obtain ⟨whole, places, rfl, -, hw, hne, -⟩ := h
  rw [decide_eq_false (not_lt.2 hr), written, signed, if_neg Bool.false_ne_true,
    List.head?_append_of_ne_nil _ hne]
  intro he
  exact absurd (hw '-' (List.mem_of_mem_head? he)) (by decide)

/-- A double that is rounded to zero can be written with a sign. -/
theorem exists_signed_zero :
    ¬ ∀ (x : Float) (v : ℚ), (Exact.ofFloat x).value? = some v →
      ∃ n : ℤ, IsNearestEven (1000 * v) n ∧ Canonical (n / 1000) (numeralChars x) := by
  intro h
  have hx : Exact.ofFloat (-0.0001) = .finite true 7378697629483821 (-66) := by decide +kernel
  have htext : numeralChars (-0.0001) = ['-', '0'] := by decide +kernel
  have hv : (Exact.ofFloat (-0.0001)).value? = some (-magnitude 7378697629483821 (-66)) := by
    rw [hx]
    rfl
  obtain ⟨n, hn, hc⟩ := h _ _ hv
  obtain rfl : n = 0 := hn.eq_of_lt (by norm_num [magnitude, abs_lt])
  rw [htext] at hc
  exact hc.head?_ne (by norm_num) rfl

end SpellText.Decimal
