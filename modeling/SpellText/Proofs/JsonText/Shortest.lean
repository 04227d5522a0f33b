import SpellText.Decimal.Shortest
import SpellText.Proofs.Doubles
import SpellText.Proofs.Numerals

/-!
# Shortest decimals round to their doubles

The decimal that `Decimal.shortest` gives is rounded to the double it was made from
(`Decimal.roundsTo_shortest`) : it is at most half a step away, a whole half only where the
mantissa is even (`Decimal.RoundsTo`).

The search stops at the first grid with a point in the basin of the double. A grid that is
finer than a quarter of a step has one, as the point below the double is that near
(`Basin.holds_floor`). Twenty grids on from the first the grid is that fine
(`Decimal.ten_zpow_coarsest_le`), so that the search does not run out of steps.
-/

namespace SpellText.Decimal

open Float.Model (UnpackedFloat)
open Float.Model.UnpackedFloat (Sign)

/-! ## Doubles -/

/-- The mantissa and the exponent of a double are in range. -/
theorem bounds_of_ofFields {s s' : Sign} {be : BitVec 11} {bm : BitVec 52} {m : Nat} {e : Int}
    {hm : 0 < m} (h : Doubles.ofFields s be bm = .finite s' m e hm) :
    m < 2 ^ 53 ∧ -1074 ≤ e ∧ e ≤ 972 := by
  have hbe := be.isLt
  have hbm := bm.isLt
  unfold Doubles.ofFields at h
  split at h
  · split at h <;> cases h
  · split at h
    · split at h
      · cases h
      · next hzero _ =>
        cases h
        rw [hzero]
        exact ⟨by omega, by decide, by decide⟩
    · next hne =>
      have hpos : be.toNat ≠ 0 := fun h' => hne (BitVec.eq_of_toNat_eq h')
      cases h
      rw [Doubles.toNat_one_append]
      omega

/-- A finite double is zero or has a mantissa and an exponent in range. -/
theorem bounds_of_ofFloat {x : Float} {negative : Bool} {m : Nat} {e : Int}
    (h : Exact.ofFloat x = .finite negative m e) :
    m = 0 ∧ e = 0 ∨ 0 < m ∧ m < 2 ^ 53 ∧ -1074 ≤ e ∧ e ≤ 972 := by
  unfold Exact.ofFloat at h
  split at h
  · cases h
  · cases h
  · cases h
    exact .inl ⟨rfl, rfl⟩
  · next hm hx =>
    cases h
    exact .inr ⟨hm, bounds_of_ofFields hx⟩

/-- Half the way from `m · 2 ^ e` to the double below. Just above a power of two the doubles
below lie twice as close. -/
def halfStepBelow (m : Nat) (e : Int) : ℚ :=
  if m = 2 ^ 52 ∧ -1074 < e then 2 ^ (e - 2) else 2 ^ (e - 1)

/-- The number `r` is rounded to the double `m · 2 ^ e` : no other double is nearer, and half
way to one the mantissa is even. Only zero is rounded to zero. -/
structure RoundsTo (m : Nat) (e : Int) (r : ℚ) : Prop where
  low : magnitude m e - halfStepBelow m e ≤ r
  high : r ≤ magnitude m e + 2 ^ (e - 1)
  even : r = magnitude m e - halfStepBelow m e ∨ r = magnitude m e + 2 ^ (e - 1) → Even m
  zero : m = 0 → r = 0

/-- Zero is rounded to zero. -/
theorem roundsTo_zero : RoundsTo 0 0 0 where
  low := by norm_num [magnitude, halfStepBelow]
  high := by norm_num [magnitude]
  even _ := Even.zero
  zero _ := rfl

/-! ## Basins -/

namespace Basin

variable {m : Nat} {e : Int}

theorem two_zpow_sub_one (e : Int) : (2 : ℚ) ^ (e - 1) = 2 * 2 ^ (e - 2) := by
  rw [← zpow_one_add₀ two_ne_zero]
  congr 1
  omega

/-- The size of a double in quarters of its last place. -/
theorem magnitude_eq (m : Nat) (e : Int) : magnitude m e = 4 * m * 2 ^ (e - 2) := by
  rw [magnitude, zpow_sub₀ two_ne_zero]
  norm_num
  ring

/-- The lower reach of a basin in quarters of a step. -/
theorem halfStepBelow_eq (m : Nat) (e : Int) :
    halfStepBelow m e = lowerReach ⟨m, e⟩ * 2 ^ (e - 2) := by
  unfold halfStepBelow lowerReach
  by_cases h : m = 2 ^ 52 ∧ -1074 < e
  · rw [if_pos h, if_pos (by simpa using h)]
    norm_num
  · rw [if_neg h, if_neg (by simpa using h), two_zpow_sub_one]
    norm_num

/-- What is rounded to a positive double is positive. -/
theorem pos_of_roundsTo {r : ℚ} (hm : 0 < m) (h : RoundsTo m e r) : 0 < r := by
  have hlow := h.low
  have h2 : (0 : ℚ) < 2 ^ (e - 2) := by positivity
  have hreach : (lowerReach ⟨m, e⟩ : ℚ) < 4 * m := by
    unfold lowerReach
    split <;> exact_mod_cast by omega
  rw [magnitude_eq, halfStepBelow_eq, ← sub_mul] at hlow
  exact (mul_pos (sub_pos.2 hreach) h2).trans_le hlow

/-- Cross products with the unit of a grid compare like the numbers themselves. -/
theorem exists_factor (e k : Int) : ∃ c : ℚ, 0 < c ∧
    (∀ a : Nat, ((a * (scaled 1 (e - 2) k).num : Nat) : ℚ) = a * 2 ^ (e - 2) * c) ∧
    ∀ n : Nat, ((n * (scaled 1 (e - 2) k).den : Nat) : ℚ) = n * 10 ^ k * c := by
  have hv := value_scaled 1 (e - 2) k
  have hd : (0 : ℚ) < (scaled 1 (e - 2) k).den := by exact_mod_cast scaled_den_pos 1 (e - 2) k
  have h10 : (0 : ℚ) < 10 ^ k := by positivity
  generalize scaled 1 (e - 2) k = unit at hv hd ⊢
  have hnum : (unit.num : ℚ) = 2 ^ (e - 2) * (unit.den / 10 ^ k) := by
    rw [Ratio.value, magnitude, div_eq_iff hd.ne', zpow_neg, Nat.cast_one, one_mul] at hv
    rw [hv]
    ring
  refine ⟨unit.den / 10 ^ k, div_pos hd h10, fun a => ?_, fun n => ?_⟩
  · rw [Nat.cast_mul, hnum, mul_assoc]
  · rw [Nat.cast_mul]
    field_simp

/-- A point of a grid is in the basin of a double if and only if it is rounded to it. -/
theorem holds_iff (hm : 0 < m) {k : Int} {n : Nat} :
    holds ⟨m, e⟩ k n = true ↔ RoundsTo m e (n * 10 ^ k) := by
  obtain ⟨c, hc, hnum, hden⟩ := exists_factor e k
  have hreach : lowerReach ⟨m, e⟩ ≤ 4 * m := by
    unfold lowerReach
    split <;> omega
  have hlow : magnitude m e - halfStepBelow m e
      = (4 * m - lowerReach ⟨m, e⟩ : Nat) * 2 ^ (e - 2) := by
    rw [magnitude_eq, halfStepBelow_eq, Nat.cast_sub hreach]
    push_cast
    ring
  have hhigh : magnitude m e + 2 ^ (e - 1) = (4 * m + 2 : Nat) * 2 ^ (e - 2) := by
    rw [magnitude_eq, two_zpow_sub_one]
    push_cast
    ring
  have hle : ∀ {a b : Nat} {x y : ℚ}, (a : ℚ) = x * c → (b : ℚ) = y * c → (a ≤ b ↔ x ≤ y) := by
    intro a b x y ha hb
    rw [← Nat.cast_le (α := ℚ), ha, hb, mul_le_mul_iff_left₀ hc]
  have hlt : ∀ {a b : Nat} {x y : ℚ}, (a : ℚ) = x * c → (b : ℚ) = y * c → (a < b ↔ x < y) := by
    intro a b x y ha hb
    rw [← Nat.cast_lt (α := ℚ), ha, hb, mul_lt_mul_iff_left₀ hc]
  unfold holds
  dsimp only
  split
  · next heven =>
    rw [Bool.and_eq_true, decide_eq_true_iff, decide_eq_true_iff, hle (hnum _) (hden _),
      hle (hden _) (hnum _), ← hlow, ← hhigh]
    exact ⟨fun ⟨h, h'⟩ => ⟨h, h', fun _ => Nat.even_iff.2 heven, fun h0 => absurd h0 hm.ne'⟩,
      fun h => ⟨h.low, h.high⟩⟩
  · next hodd =>
    rw [Bool.and_eq_true, decide_eq_true_iff, decide_eq_true_iff, hlt (hnum _) (hden _),
      hlt (hden _) (hnum _), ← hlow, ← hhigh]
    constructor
    · rintro ⟨h, h'⟩
      refine ⟨h.le, h'.le, ?_, fun h0 => absurd h0 hm.ne'⟩
      rintro (he | he)
      · exact absurd he h.ne'
      · exact absurd he h'.ne
    · intro h
      have hne : ¬ Even m := fun he => hodd (Nat.even_iff.1 he)
      exact ⟨h.low.lt_of_ne fun he => hne (h.even (.inl he.symm)),
        h.high.lt_of_ne fun he => hne (h.even (.inr he))⟩

/-- The point below the double is in its basin where the grid is fine. -/
theorem holds_floor (hm : 0 < m) {k : Int} (hk : (10 : ℚ) ^ k ≤ 2 ^ (e - 2)) :
    holds ⟨m, e⟩ k (scaled m e k).floor = true := by
  have h10 : (0 : ℚ) < 10 ^ k := by positivity
  have h2 : (0 : ℚ) < 2 ^ (e - 2) := by positivity
  have hd : (0 : ℚ) < (scaled m e k).den := by exact_mod_cast scaled_den_pos m e k
  have hv : (scaled m e k).value * 10 ^ k = magnitude m e := by
    rw [value_scaled, zpow_neg]
    field_simp
  have hbelow : ((scaled m e k).floor : ℚ) * 10 ^ k ≤ magnitude m e := by
    rw [← hv]
    exact mul_le_mul_of_nonneg_right Nat.cast_div_le h10.le
  have habove : magnitude m e < (scaled m e k).floor * 10 ^ k + 10 ^ k := by
    have hlt : (scaled m e k).value < (scaled m e k).floor + 1 := by
      rw [Ratio.value, div_lt_iff₀ hd]
      exact_mod_cast Nat.lt_mul_of_div_lt (Nat.lt_succ_self _) (scaled_den_pos m e k)
    calc magnitude m e = (scaled m e k).value * 10 ^ k := hv.symm
      _ < ((scaled m e k).floor + 1) * 10 ^ k := mul_lt_mul_of_pos_right hlt h10
      _ = _ := by ring
  have hstep : (2 : ℚ) ^ (e - 2) ≤ halfStepBelow m e := by
    rw [halfStepBelow_eq]
    refine le_mul_of_one_le_left h2.le ?_
    unfold lowerReach
    split <;> norm_num
  have hhalf : (0 : ℚ) < 2 ^ (e - 1) := by positivity
  rw [holds_iff hm]
  refine ⟨by linarith, by linarith, ?_, fun h => absurd h hm.ne'⟩
  rintro (he | he) <;> linarith

/-- What is found on a grid is in the basin. -/
theorem holds_of_nearestOn {b : Basin} {tie : Tie} {k : Int} {n : Nat}
    (h : b.nearestOn tie k = some n) : b.holds k n = true := by
  unfold nearestOn at h
  dsimp only at h
  split at h
  · next hbelow habove =>
    cases h
    split
    · exact hbelow
    · split
      · exact habove
      · cases tie with
        | up => exact habove
        | toEven =>
          rw [Tie.pick]
          rcases Nat.mod_two_eq_zero_or_one (scaled b.mantissa b.exponent k).floor with h0 | h1
          · rwa [h0]
          · rwa [h1]
  · next hbelow _ =>
    cases h
    exact hbelow
  · next habove =>
    cases h
    exact habove
  · cases h

/-- The search ends in the basin if the last grid is fine. -/
theorem holds_search (hm : 0 < m) (tie : Tie) : ∀ {steps : Nat} {k : Int},
    (10 : ℚ) ^ (k - steps) ≤ 2 ^ (e - 2) →
      holds ⟨m, e⟩ (search ⟨m, e⟩ tie steps k).2 (search ⟨m, e⟩ tie steps k).1 = true
  | 0, k, h => by
    rw [Nat.cast_zero, sub_zero] at h
    exact holds_floor hm h
  | steps + 1, k, h => by
    rw [search]
    split
    · next hn => exact holds_of_nearestOn hn
    · refine holds_search hm tie ?_
      rwa [Int.sub_sub, add_comm 1, ← Nat.cast_add_one]

end Basin

/-! ## Fine grids -/

/-- Powers of ten by powers of two, for the exponents of doubles. -/
theorem ten_zpow_le {j l : Int} (hj : j * 100000 ≤ l * 30103) (hl : -1074 ≤ l) (hu : l ≤ 1100) :
    (10 : ℚ) ^ j ≤ 2 ^ (l + 5) := by
  have h10 : (0 : ℚ) ≤ 10 ^ j := by positivity
  have h2 : (0 : ℚ) ≤ 2 ^ (l + 5) := by positivity
  rcases Int.le_total 0 j with h | h
  · -- A thousand is less than the tenth power of two.
    refine le_of_pow_le_pow_left₀ three_ne_zero h2 ?_
    calc ((10 : ℚ) ^ j) ^ 3 = (10 ^ 3) ^ j := by rw [← zpow_natCast, ← zpow_natCast, zpow_comm]
      _ ≤ (2 ^ 10) ^ j := zpow_le_zpow_left₀ h (by norm_num) (by norm_num)
      _ = 2 ^ (10 * j) := by rw [zpow_mul]; norm_num
      _ ≤ 2 ^ ((l + 5) * 3) := zpow_le_zpow_right₀ one_le_two (by omega)
      _ = (2 ^ (l + 5)) ^ 3 := by rw [zpow_mul]; norm_cast
  · -- The thirteenth power of ten is more than the forty-third of two.
    refine le_of_pow_le_pow_left₀ (n := 13) (by norm_num) h2 ?_
    calc ((10 : ℚ) ^ j) ^ 13 = (10 ^ 13) ^ j := by rw [← zpow_natCast, ← zpow_natCast, zpow_comm]
      _ ≤ (2 ^ 43) ^ j := by
        rw [← inv_le_inv₀ (by positivity) (by positivity), ← zpow_neg, ← zpow_neg]
        exact zpow_le_zpow_left₀ (Int.neg_nonneg_of_nonpos h) (by norm_num) (by norm_num)
      _ = 2 ^ (43 * j) := by rw [zpow_mul]; norm_num
      _ ≤ 2 ^ ((l + 5) * 13) := zpow_le_zpow_right₀ one_le_two (by omega)
      _ = (2 ^ (l + 5)) ^ 13 := by rw [zpow_mul]; norm_cast

/-- Twenty grids on from the first, points lie closer than a quarter of a step. -/
theorem ten_zpow_coarsest_le {m : Nat} {e : Int} (hpos : 0 < m) (hm : m < 2 ^ 53)
    (hl : -1074 ≤ e) (hu : e ≤ 972) :
    (10 : ℚ) ^ ((Basin.mk m e).coarsest - 20) ≤ 2 ^ (e - 2) := by
  have hlog : m.log2 < 53 := (Nat.log2_lt hpos.ne').2 hm
  obtain ⟨l, hle⟩ : ∃ l : Int, l = (m.log2 : Int) + e + 1 := ⟨_, rfl⟩
  have hc : (Basin.mk m e).coarsest = l * 30103 / 100000 + 1 := by rw [Basin.coarsest, hle]
  have hten : (10 : ℚ) ^ (l * 30103 / 100000) ≤ 2 ^ (l + 5) :=
    ten_zpow_le (Int.ediv_mul_le _ (by decide)) (by omega) (by omega)
  calc (10 : ℚ) ^ ((Basin.mk m e).coarsest - 20)
      = 10 ^ (l * 30103 / 100000) * 10 ^ (-19 : Int) := by
        rw [hc, ← zpow_add₀ (by norm_num)]
        congr 1
        omega
    _ ≤ 2 ^ (l + 5) * 10 ^ (-19 : Int) := mul_le_mul_of_nonneg_right hten (by positivity)
    _ ≤ 2 ^ (e + 58) * 2 ^ (-60 : Int) := by
        refine mul_le_mul ?_ (by norm_num) (by positivity) (by positivity)
        exact zpow_le_zpow_right₀ one_le_two (by omega)
    _ = 2 ^ (e - 2) := by
        rw [← zpow_add₀ two_ne_zero]
        congr 1
        omega

/-- The shortest decimal of a double is rounded to it. -/
theorem roundsTo_shortest (tie : Tie) {m : Nat} {e : Int} (hpos : 0 < m) (hm : m < 2 ^ 53)
    (hl : -1074 ≤ e) (hu : e ≤ 972) :
    RoundsTo m e ((shortest tie m e).1 * 10 ^ (shortest tie m e).2) :=
  (Basin.holds_iff hpos).1 (Basin.holds_search hpos tie (ten_zpow_coarsest_le hpos hm hl hu))

end SpellText.Decimal
