import Mathlib

/-!
# Laws of doubles

Sums multiply their right operand by `1.0`, differences by `-1.0`, and products take
their factors in either order. That this does not show in the coefficients follows
from a few laws of double arithmetic, which hold of all doubles, of infinities, signed
zeros and NaN too : products commute (`mul_comm`), `1.0` is neutral (`mul_one`), and
adding a number times `-1.0` is subtracting it (`add_mul_neg_one`).

An operation takes its operands apart into sign, exponent and mantissa and packs the
rounded result again. `ofFields` is the number that three bit fields stand for. It has
the exponent that its format wants (`IsCanonical`), so that rounding gives it back
(`round_shifted`), and turning its sign turns its sign field (`neg_ofFields`), so that
the turned number survives being packed (`unpack_neg`).
-/

namespace SpellText.Doubles

open Float.Model Float.Model.UnpackedFloat

/-! ## Signs -/

theorem sign_mul_comm (s t : Sign) : s * t = t * s := by
  cases s <;> cases t <;> rfl

theorem sign_mul_positive (s : Sign) : s * .positive = s := by
  cases s <;> rfl

theorem sign_mul_negative (s : Sign) : s * .negative = -s := by
  cases s <;> rfl

theorem apply_neg (s : Sign) (n : Int) : (-s).apply n = -(s.apply n) := by
  cases s
  · exact (Int.neg_neg n).symm
  · rfl

/-! ## Bit fields -/

theorem toNat_one_append (m : BitVec 52) :
    (1#1 ++ m).toNat = 4503599627370496 + m.toNat := by
  rw [BitVec.toNat_append, ← Nat.shiftLeft_add_eq_or_of_lt m.isLt]
  rfl

/-- The number with the given sign, exponent and mantissa fields. -/
def ofFields (s : Sign) (e : BitVec 11) (m : BitVec 52) : UnpackedFloat :=
  if e = -1#11 then
    if m = 0#52 then .infinity s else .notANumber
  else if e = 0#11 then
    if h : m = 0#52 then .zero s
    else .finite s m.toNat (e.toNat - 1075 + 1)
      (Nat.pos_of_ne_zero fun h' => h (BitVec.eq_of_toNat_eq h'))
  else .finite s (1#1 ++ m).toNat (e.toNat - 1075) (by rw [toNat_one_append]; omega)

theorem unpack_eq_ofFields (b : BitVec 64) :
    unpack .binary64 b = ofFields (.ofBitVec (@unpackSign .binary64 b))
      (@unpackExponent .binary64 b) (@unpackMantissa .binary64 b) :=
  rfl

/-- Packed fields are unpacked as they were. -/
theorem unpack_packComponents (s : Sign) (e : BitVec 11) (m : BitVec 52) :
    unpack .binary64 (packComponents .binary64 s e m) = ofFields s e m := by
  have hs : @unpackSign .binary64 (packComponents .binary64 s e m) = s.toBitVec :=
    @unpackSign_packComponents .binary64 s e m
  have he : @unpackExponent .binary64 (packComponents .binary64 s e m) = e :=
    unpackExponent_packComponents
  have hm : @unpackMantissa .binary64 (packComponents .binary64 s e m) = m :=
    unpackMantissa_packComponents
  rw [unpack_eq_ofFields, hs, he, hm, Sign.ofBitVec_toBitVec]

/-- A double that is taken apart and packed again is the same double. -/
theorem pack_unpack_model (x : Float.Model) : Float.Model.pack x.unpack = x := by
  have h := pack_unpack_of_valid x.valid
  cases x
  simp only [Float.Model.pack, Float.Model.unpack, h]

/-! ## Rounding -/

/-- The exponent is the one that the format wants for this mantissa. -/
def IsCanonical : UnpackedFloat → Prop
  | .finite _ m e _ => Format.binary64.targetExponent (totalExponent m e) = e
  | _ => True

theorem targetExponent_eq (n : Int) : Format.binary64.targetExponent n = max (n - 53) (-1074) :=
  rfl

theorem log2_mantissa {m : BitVec 52} (h : m ≠ 0#52) : m.toNat.log2 < 52 :=
  (Nat.log2_lt fun h' => h (BitVec.eq_of_toNat_eq h')).2 m.isLt

theorem log2_one_append (m : BitVec 52) : (1#1 ++ m).toNat.log2 = 52 := by
  have := m.isLt
  rw [toNat_one_append, Nat.log2_eq_iff (by omega)]
  omega

/-- Fields stand for a canonical number. -/
theorem isCanonical_ofFields (s : Sign) (e : BitVec 11) (m : BitVec 52) :
    IsCanonical (ofFields s e m) := by
  unfold ofFields
  split
  · split <;> trivial
  · split
    · next he =>
      split
      · trivial
      · next hm =>
        have := log2_mantissa hm
        rw [IsCanonical, targetExponent_eq, totalExponent, he]
        simp only [BitVec.toNat_ofNat, Nat.zero_mod]
        omega
    · next he =>
      have : e.toNat ≠ 0 := fun h => he (BitVec.eq_of_toNat_eq h)
      rw [IsCanonical, targetExponent_eq, totalExponent, log2_one_append]
      omega

theorem isCanonical_unpack (x : Float.Model) : IsCanonical x.unpack :=
  isCanonical_ofFields _ _ _

theorem log2_shiftLeft {m : Nat} (hm : 0 < m) (k : Nat) : (m <<< k).log2 = m.log2 + k := by
  induction k with
  | zero => rfl
  | succ k ih =>
    have h : m <<< k ≠ 0 := by
      rw [Nat.shiftLeft_eq]
      exact Nat.ne_of_gt (Nat.mul_pos hm (Nat.two_pow_pos k))
    rw [Nat.shiftLeft_succ, Nat.log2_two_mul h, ih]
    rfl

/-- Shifting back loses nothing. -/
theorem shiftRight_shiftLeft (m k : Nat) :
    (⟨m <<< k, false, false⟩ : ExtendedMantissa) >>> k = ⟨m, false, false⟩ := by
  induction k generalizing m with
  | zero => rfl
  | succ k ih =>
    rw [Nat.shiftLeft_succ_inside]
    show ((⟨(2 * m) <<< k, false, false⟩ : ExtendedMantissa) >>> k).shiftRightOne = _
    rw [ih]
    simp [ExtendedMantissa.shiftRightOne]

/-- A number that has the exponent of its format is not rounded, wherever its mantissa is
shifted to. -/
theorem round_shifted {s : Sign} {m : Nat} {e : Int} {hm : 0 < m}
    (h : IsCanonical (.finite s m e hm)) (k : Nat) :
    roundWithAccuracy .binary64 s (m <<< k) (e - k) .exact = .finite s m e hm := by
  have ht : totalExponent (m <<< k) (e - k) = totalExponent m e := by
    rw [totalExponent, totalExponent, log2_shiftLeft hm]
    omega
  have h₁ : shiftToTargetExponent .binary64 (m <<< k) (e - k) .exact = (⟨m, false, false⟩, e) := by
    rw [shiftToTargetExponent, ht, h, shiftToExponent]
    have hk : (e - (e - k)).toNat = k := by omega
    rw [hk]
    exact Prod.ext (shiftRight_shiftLeft m k) (by simp)
  have h₂ : shiftToTargetExponent .binary64 m e .exact = (⟨m, false, false⟩, e) := by
    rw [shiftToTargetExponent, h, shiftToExponent, Int.sub_self]
    exact Prod.ext rfl (by simp)
  rw [roundWithAccuracy, h₁]
  simp only [ExtendedMantissa.roundedMantissa, ExtendedMantissa.accuracy,
    Accuracy.roundToNearestEven, h₂]
  rw [dif_neg (Nat.ne_of_gt hm)]

/-! ## The laws -/

/-- Unpacked numbers may be multiplied in either order. -/
theorem unpacked_mul_comm (a b : UnpackedFloat) :
    UnpackedFloat.mul .binary64 a b = UnpackedFloat.mul .binary64 b a := by
  cases a <;> cases b <;>
    simp only [UnpackedFloat.mul, sign_mul_comm, Nat.mul_comm, Int.add_comm]

/-- Products commute. -/
theorem mul_comm (x y : Float) : x * y = y * x :=
  congrArg (fun u => Float.ofModel (Float.Model.pack u))
    (unpacked_mul_comm x.toModel.unpack y.toModel.unpack)

/-- A factor of one decides the sign only. -/
theorem unpacked_mul_unit {a : UnpackedFloat} (h : IsCanonical a) (s : Sign) :
    UnpackedFloat.mul .binary64 a (.finite s 4503599627370496 (-52) (by decide))
      = match s with
        | .positive => a
        | .negative => a.neg := by
  cases a with
  | finite t m e hm =>
    have hk : m * 4503599627370496 = m <<< 52 := (Nat.shiftLeft_eq m 52).symm
    rw [UnpackedFloat.mul, hk]
    cases s with
    | positive =>
      rw [sign_mul_positive]
      exact round_shifted h 52
    | negative =>
      rw [sign_mul_negative]
      exact round_shifted (s := -t) h 52
  | notANumber => cases s <;> rfl
  | infinity t => cases s <;> cases t <;> rfl
  | zero t => cases s <;> cases t <;> rfl

/-- A factor of one changes nothing. -/
theorem mul_one (x : Float) : x * 1.0 = x := by
  show Float.ofModel (Float.Model.pack (UnpackedFloat.mul .binary64 x.toModel.unpack _)) = x
  have h := unpacked_mul_unit (isCanonical_unpack x.toModel) .positive
  exact congrArg Float.ofModel ((congrArg Float.Model.pack h).trans (pack_unpack_model x.toModel))

/-- A factor of minus one turns the sign. -/
theorem mul_neg_one (x : Float) : x * (-1.0) = -x := by
  show Float.ofModel (Float.Model.pack (UnpackedFloat.mul .binary64 x.toModel.unpack _)) = -x
  have h := unpacked_mul_unit (isCanonical_unpack x.toModel) .negative
  exact congrArg Float.ofModel (congrArg Float.Model.pack h)

/-- A number is negated by its sign alone. -/
theorem neg_ofFields (s : Sign) (e : BitVec 11) (m : BitVec 52) :
    (ofFields s e m).neg = ofFields (-s) e m := by
  unfold ofFields
  split
  · split <;> rfl
  · split
    · split <;> rfl
    · rfl

/-- A number with its sign turned survives being packed. -/
theorem unpack_pack_neg_ofFields (s : Sign) (e : BitVec 11) (m : BitVec 52) :
    unpack .binary64 (UnpackedFloat.pack .binary64 (ofFields s e m).neg)
      = (ofFields s e m).neg := by
  rw [neg_ofFields]
  by_cases h : e = -1#11 ∧ m ≠ 0#52
  · rw [ofFields, if_pos h.1, if_neg h.2]
    rfl
  · -- The turned fields make up a double, as they are not those of NaN.
    have hv : Format.binary64.Valid (packComponents .binary64 (-s) e m) := by
      refine ⟨fun he hm => absurd ⟨?_, ?_⟩ h⟩
      · exact (@unpackExponent_packComponents .binary64 (-s) e m).symm.trans he
      · exact fun h' => hm ((@unpackMantissa_packComponents .binary64 (-s) e m).trans h')
    have hp := pack_unpack_of_valid hv
    rw [unpack_packComponents] at hp
    rw [hp, unpack_packComponents]

/-- Turning the sign loses nothing. -/
theorem unpack_neg (x : Float.Model) : (-x).unpack = x.unpack.neg :=
  unpack_pack_neg_ofFields _ _ _

/-- To add the negative is to subtract. -/
theorem unpacked_add_neg (a b : UnpackedFloat) :
    UnpackedFloat.add .binary64 a b.neg = UnpackedFloat.sub .binary64 a b := by
  cases a <;> cases b <;>
    simp [UnpackedFloat.add, UnpackedFloat.sub, UnpackedFloat.neg, apply_neg, Int.sub_eq_add_neg]

/-- Adding with the sign turned is subtracting. -/
theorem add_neg (x y : Float) : x + -y = x - y := by
  show Float.ofModel (Float.Model.pack (UnpackedFloat.add .binary64 x.toModel.unpack
    (-y.toModel).unpack)) = x - y
  rw [unpack_neg, unpacked_add_neg]
  rfl

/-- Adding a number times minus one is subtracting it. -/
theorem add_mul_neg_one (x y : Float) : x + y * (-1.0) = x - y := by
  rw [mul_neg_one, add_neg]

end SpellText.Doubles
