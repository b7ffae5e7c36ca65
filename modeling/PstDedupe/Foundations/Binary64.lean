import Mathlib

/-!
# Quotients of binary64 numbers

An unsigned integer that is not zero becomes a finite number, whatever rounding does to it, and a
finite number divided by itself is one.
-/

namespace Foundations

namespace Binary64

open Float.Model Float.Model.UnpackedFloat

def IsFinite (u : UnpackedFloat) : Prop := ∃ s m e h, u = .finite s m e h

/-- A mantissa of 53 bits and an exponent that is neither too small nor too large. -/
structure Normal (m : Nat) (e : Int) : Prop where
  mantissa : m.log2 = 52
  low : -1074 ≤ e
  high : e ≤ 971

theorem mantissa_shiftRight (em : ExtendedMantissa) (k : Nat) : (em >>> k).mantissa = em.mantissa / 2 ^ k := by
  induction k generalizing em with
  | zero =>
    show em.mantissa = em.mantissa / 2 ^ 0
    rw [pow_zero, Nat.div_one]
  | succ k ih =>
    show (em >>> k).mantissa / 2 = em.mantissa / 2 ^ (k + 1)
    rw [ih, Nat.div_div_eq_div_mul, pow_succ]

theorem roundedMantissa_bounds (em : ExtendedMantissa) :
    em.mantissa ≤ em.roundedMantissa ∧ em.roundedMantissa ≤ em.mantissa + 1 := by
  obtain ⟨m, r, s⟩ := em
  cases r <;> cases s <;> simp only [ExtendedMantissa.roundedMantissa, ExtendedMantissa.accuracy,
    Accuracy.roundToNearestEven] <;>
    omega

theorem targetExponent_eq {m : Nat} {e : Int} (hm : 52 ≤ m.log2) (he : -1074 ≤ e) :
    Format.binary64.targetExponent (totalExponent m e) = e + (m.log2 - 52 : Nat) := by
  show max ((m.log2 : Int) + 1 + e - 53) (-1074) = e + (m.log2 - 52 : Nat)
  omega

theorem shiftToTargetExponent_eq {m : Nat} {e : Int} (hm : 52 ≤ m.log2) (he : -1074 ≤ e) :
    (shiftToTargetExponent Format.binary64 m e .exact).1.mantissa = m / 2 ^ (m.log2 - 52) ∧
      (shiftToTargetExponent Format.binary64 m e .exact).2 = e + (m.log2 - 52 : Nat) := by
  unfold shiftToTargetExponent
  rw [targetExponent_eq hm he]
  have hshift : (e + (m.log2 - 52 : Nat) - e).toNat = m.log2 - 52 := by omega
  unfold shiftToExponent
  dsimp only
  rw [hshift]
  exact ⟨mantissa_shiftRight _ _, rfl⟩

theorem div_pow_bounds {m : Nat} (hm : 52 ≤ m.log2) :
    2 ^ 52 ≤ m / 2 ^ (m.log2 - 52) ∧ m / 2 ^ (m.log2 - 52) < 2 ^ 53 := by
  have hpos : m ≠ 0 := by
    rintro rfl
    exact absurd hm (by decide)
  constructor
  · rw [Nat.le_div_iff_mul_le (by positivity), ← pow_add, Nat.add_sub_cancel' hm]
    exact Nat.log2_self_le hpos
  · rw [Nat.div_lt_iff_lt_mul (by positivity), ← pow_add]
    have hexp : 53 + (m.log2 - 52) = m.log2 + 1 := by omega
    rw [hexp]
    exact Nat.lt_log2_self

theorem log2_eq {m : Nat} (hlow : 2 ^ 52 ≤ m) (hhigh : m < 2 ^ 53) : m.log2 = 52 := by
  have hpos : m ≠ 0 := by omega
  have hge := (Nat.le_log2 hpos).mpr hlow
  have hlt := (Nat.log2_lt hpos).mpr hhigh
  omega

theorem normal_roundWithAccuracy (s : Sign) {m : Nat} {e : Int} (hm : 52 ≤ m.log2)
    (hlow : -1074 ≤ e) (hhigh : e + m.log2 ≤ 1022) :
    ∃ m' e' h, roundWithAccuracy Format.binary64 s m e .exact = .finite s m' e' h ∧ Normal m' e' := by
  unfold roundWithAccuracy
  obtain ⟨hmantissa, hexponent⟩ := shiftToTargetExponent_eq hm hlow
  obtain ⟨hle, hlt⟩ := div_pow_bounds hm
  have hrounded := roundedMantissa_bounds (shiftToTargetExponent Format.binary64 m e .exact).1
  rw [hmantissa] at hrounded
  generalize shiftToTargetExponent Format.binary64 m e .exact = first at hexponent hrounded
  obtain ⟨em₁, e₁⟩ := first
  dsimp only at hexponent hrounded ⊢
  generalize em₁.roundedMantissa = r at hrounded
  have hr : 52 ≤ r.log2 := (Nat.le_log2 (by omega)).mpr (by omega)
  obtain ⟨hfinal, hfinalExponent⟩ := shiftToTargetExponent_eq hr (e := e₁) (by omega)
  obtain ⟨hfle, hflt⟩ := div_pow_bounds hr
  rw [← hfinal] at hfle hflt
  have hnonzero : (shiftToTargetExponent Format.binary64 r e₁ .exact).1.mantissa ≠ 0 := by omega
  have hr' : r.log2 ≤ 53 := by
    have hlog := (Nat.log2_lt (k := 54) (by omega : r ≠ 0)).mpr (by omega)
    omega
  rw [dif_neg hnonzero]
  refine ⟨_, _, _, rfl, log2_eq hfle hflt, ?_, ?_⟩ <;> omega

theorem log2_mul_two_pow {n k : Nat} (hn : n ≠ 0) : (n * 2 ^ k).log2 = n.log2 + k := by
  have hpos : n * 2 ^ k ≠ 0 := Nat.mul_ne_zero hn (by positivity)
  rw [Nat.log2_eq_iff hpos]
  constructor
  · rw [pow_add]
    exact Nat.mul_le_mul_right _ (Nat.log2_self_le hn)
  · have hexp : 2 ^ (n.log2 + k + 1) = 2 ^ (n.log2 + 1) * 2 ^ k := by ring
    rw [hexp]
    exact Nat.mul_lt_mul_of_pos_right Nat.lt_log2_self (by positivity)

theorem normal_ofNat {n : Nat} (hn : n ≠ 0) (hlt : n < 2 ^ 64) :
    ∃ s m e h, UnpackedFloat.ofNat Format.binary64 n = .finite s m e h ∧ Normal m e := by
  have hcompare : compare (n : Int) 0 = .gt := by
    rw [Int.compare_eq_gt]
    omega
  have hlog : n.log2 < 64 := (Nat.log2_lt hn).mpr hlt
  unfold UnpackedFloat.ofNat UnpackedFloat.ofInt UnpackedFloat.normalize
  rw [hcompare]
  dsimp only
  rw [Int.toNat_natCast]
  unfold UnpackedFloat.round decreaseExponent
  have htarget : Format.binary64.targetExponent (totalExponent n 0) = n.log2 - 52 := by
    show max ((n.log2 : Int) + 1 + 0 - 53) (-1074) = n.log2 - 52
    omega
  rw [htarget]
  have hshifted : (n <<< (0 - ((n.log2 : Int) - 52)).toNat).log2 = max n.log2 52 := by
    rw [Nat.shiftLeft_eq, log2_mul_two_pow hn]
    omega
  obtain ⟨m', e', h, heq, hnormal⟩ :=
    normal_roundWithAccuracy .positive (m := n <<< (0 - ((n.log2 : Int) - 52)).toNat)
    (e := 0 - (0 - ((n.log2 : Int) - 52)).toNat) (by omega) (by omega) (by omega)
  exact ⟨.positive, m', e', h, heq, hnormal⟩

theorem unpack_pack {s : Sign} {m : Nat} {e : Int} {h : 0 < m} (hnormal : Normal m e) :
    IsFinite (UnpackedFloat.unpack Format.binary64
      (UnpackedFloat.pack Format.binary64 (.finite s m e h))) := by
  obtain ⟨hmantissa, hlow, hhigh⟩ := hnormal
  have hbiased : (e + Format.binary64.exponentBias +
      Format.binary64.mantissaBitsWithoutImplicit).toNat = (e + 1075).toNat := by
    show (e + 1023 + 52).toNat = (e + 1075).toNat
    omega
  unfold UnpackedFloat.pack
  dsimp only
  rw [hbiased, hmantissa]
  have hsmall : ¬ 2 ^ Format.binary64.exponentBits ≤ (e + 1075).toNat + 1 := by
    show ¬ 2048 ≤ (e + 1075).toNat + 1
    omega
  have hnormal : 52 + 1 = Format.binary64.mantissaBits := rfl
  rw [if_neg hsmall, if_pos hnormal]
  unfold UnpackedFloat.unpack
  dsimp only
  rw [unpackExponent_packComponents]
  have hexponent : ((e + 1075).toNat : Nat) % 2048 = (e + 1075).toNat := Nat.mod_eq_of_lt (by omega)
  have hones : BitVec.ofNat 11 (e + 1075).toNat ≠ -1#_ := fun h => by
    have hvalue : (e + 1075).toNat % 2048 = 2047 := congrArg BitVec.toNat h
    omega
  have hzero : BitVec.ofNat 11 (e + 1075).toNat ≠ 0#_ := fun h => by
    have hvalue : (e + 1075).toNat % 2048 = 0 := congrArg BitVec.toNat h
    omega
  rw [if_neg hones, if_neg hzero]
  exact ⟨_, _, _, _, rfl⟩

theorem isFinite_toFloat {n : UInt64} (hn : n ≠ 0) : IsFinite n.toFloat.toModel.unpack := by
  have hne : n.toNat ≠ 0 := fun h => hn (UInt64.toNat_inj.mp h)
  obtain ⟨s, m, e, h, heq, hnormal⟩ := normal_ofNat hne n.toNat_lt
  show IsFinite (UnpackedFloat.unpack Format.binary64
    (UnpackedFloat.pack Format.binary64 (.ofNat Format.binary64 n.toNat)))
  rw [heq]
  exact unpack_pack hnormal

theorem div_self {x : Float} (h : IsFinite x.toModel.unpack) : x / x = 1.0 := by
  obtain ⟨s, m, e, hm, heq⟩ := h
  show Float.ofModel
    (Float.Model.pack (UnpackedFloat.div Format.binary64 x.toModel.unpack x.toModel.unpack)) = 1.0
  rw [heq]
  have hcore : divCore Format.binary64 m e m e = (2 ^ 53, -53, .exact) := by
    have htarget : min (e - e)
        (Format.binary64.targetExponent (totalExponent m e - totalExponent m e)) = -53 := by
      rw [Int.sub_self, Int.sub_self]
      decide
    unfold divCore
    rw [htarget, Int.sub_self]
    have hmul : m <<< ((0 : Int) - -53).toNat = m * 2 ^ 53 := Nat.shiftLeft_eq m 53
    dsimp only
    rw [hmul, Nat.mul_div_cancel_left _ hm, Nat.mul_mod_right]
    rfl
  unfold UnpackedFloat.div
  dsimp only
  rw [hcore]
  cases s <;> decide +kernel

end Binary64

end Foundations
