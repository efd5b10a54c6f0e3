import JieziCloud.Binary64.Normal

open Float.Model Float.Model.UnpackedFloat

namespace binary64

/-- Rounding leaves the mantissa as it was cut off, or raises it by one. -/
theorem mantissa_le_rounded (em : ExtendedMantissa) :
    em.mantissa ≤ em.roundedMantissa ∧ em.roundedMantissa ≤ em.mantissa + 1 := by
  obtain ⟨mantissa, roundBit, stickyBit⟩ := em
  cases roundBit <;> cases stickyBit <;>
    simp [ExtendedMantissa.roundedMantissa, ExtendedMantissa.accuracy, Accuracy.roundToNearestEven]
  omega

/-- A mantissa of 53 bits has its exponent already. -/
theorem shift_none {m : Nat} {e : Int} (accuracy : Accuracy) (hm : m.log2 = 52) (he : -1074 ≤ e) :
    shiftToTargetExponent Format.binary64 m e accuracy = (.ofMantissaAndAccuracy m accuracy, e) := by
  have htarget : Format.binary64.targetExponent (totalExponent m e) = e := by
    change max ((m.log2 : Int) + 1 + e - 53) (-1074) = e
    omega
  rw [shiftToTargetExponent, htarget, shiftToExponent, Int.sub_self]
  change (_, e + 0) = _
  rw [Int.add_zero]
  rfl

/-- A mantissa of 54 bits gives up its last bit. -/
theorem shift_one {m : Nat} {e : Int} (accuracy : Accuracy) (hm : m.log2 = 53)
    (he : -1074 ≤ e) :
    shiftToTargetExponent Format.binary64 m e accuracy =
      ((ExtendedMantissa.ofMantissaAndAccuracy m accuracy).shiftRightOne, e + 1) := by
  have htarget : Format.binary64.targetExponent (totalExponent m e) = e + 1 := by
    change max ((m.log2 : Int) + 1 + e - 53) (-1074) = e + 1
    omega
  have hamount : (e + 1 - e).toNat = 1 := by omega
  rw [shiftToTargetExponent, htarget, shiftToExponent, hamount]
  rfl

theorem mantissa_ofMantissaAndAccuracy (m : Nat) (accuracy : Accuracy) :
    (ExtendedMantissa.ofMantissaAndAccuracy m accuracy).mantissa = m := by
  cases accuracy with
  | exact => rfl
  | inexact order => cases order <;> rfl

/-- What becomes of a mantissa that rounding may have carried into a 54th bit. -/
theorem carry_spec {r : Nat} {e : Int} (hlower : 2 ^ 52 ≤ r) (hupper : r ≤ 2 ^ 53)
    (hleast : -1074 ≤ e) (hgreatest : e ≤ 970) : ∃ q : Normal,
      (shiftToTargetExponent Format.binary64 r e .exact).1.mantissa = q.mantissa ∧
        (shiftToTargetExponent Format.binary64 r e .exact).2 = q.exponent ∧ q.value = r * 2 ^ e := by
  obtain hlt | rfl := Nat.lt_or_eq_of_le hupper
  · have hlog : r.log2 = 52 := (Nat.log2_eq_iff (by omega)).mpr ⟨hlower, hlt⟩
    rw [shift_none _ hlog hleast]
    exact ⟨⟨r, e, hlower, hlt, hleast, by omega⟩, rfl, rfl, rfl⟩
  · rw [shift_one _ Nat.log2_two_pow hleast]
    refine ⟨⟨2 ^ 52, e + 1, le_rfl, by decide, by omega, by omega⟩, rfl, rfl, ?_⟩
    rw [Normal.value, zpow_add_one₀ (by norm_num)]
    push_cast
    ring

/-- A mantissa that has been cut to fifty-three bits is rounded to a normal number
    of exactly the rounded value, also where rounding carries into one more bit.
    The bounds keep the exponent within the format. -/
theorem round_of_carry {m : Nat} {e : Int} {accuracy : Accuracy} {em : ExtendedMantissa} {e' : Int}
    (hshift : shiftToTargetExponent Format.binary64 m e accuracy = (em, e'))
    (hlower : 2 ^ 52 ≤ em.roundedMantissa) (hupper : em.roundedMantissa ≤ 2 ^ 53)
    (hleast : -1074 ≤ e') (hgreatest : e' ≤ 970) : ∃ q : Normal,
      roundWithAccuracy Format.binary64 .positive m e accuracy = q.unpacked ∧
        q.value = em.roundedMantissa * 2 ^ e' := by
  obtain ⟨q, hmantissa, hexponent, hvalue⟩ := carry_spec hlower hupper hleast hgreatest
  refine ⟨q, ?_, hvalue⟩
  rw [roundWithAccuracy, hshift]
  dsimp only
  have hpos := q.mantissa_pos
  rw [dif_neg (by omega)]
  simp only [hmantissa, hexponent]
  rfl

/-- A mantissa of 53 or 54 bits is rounded to a normal number, which is off by
    at most the last place of the result. -/
theorem round_spec {m : Nat} {e : Int} (accuracy : Accuracy) (hlower : 2 ^ 52 ≤ m) (hupper : m < 2 ^ 54)
    (hleast : -1074 ≤ e) (hgreatest : e ≤ 969) : ∃ (q : Normal) (n place : Nat),
      roundWithAccuracy Format.binary64 .positive m e accuracy = q.unpacked ∧ q.value = n * 2 ^ e ∧
        2 ^ 52 * place ≤ m ∧ m + 1 ≤ n + place ∧ n ≤ m + place := by
  obtain hlt | hge := Nat.lt_or_ge m (2 ^ 53)
  · have hlog : m.log2 = 52 := (Nat.log2_eq_iff (by omega)).mpr ⟨hlower, hlt⟩
    have hbounds := mantissa_le_rounded (.ofMantissaAndAccuracy m accuracy)
    rw [mantissa_ofMantissaAndAccuracy] at hbounds
    obtain ⟨q, hround, hvalue⟩ :=
      round_of_carry (shift_none accuracy hlog hleast) (by omega) (by omega) hleast (by omega)
    exact ⟨q, _, 1, hround, hvalue, by omega, by omega, by omega⟩
  · have hlog : m.log2 = 53 := (Nat.log2_eq_iff (by omega)).mpr ⟨hge, hupper⟩
    have hbounds := mantissa_le_rounded (ExtendedMantissa.ofMantissaAndAccuracy m accuracy).shiftRightOne
    have hhalf : (ExtendedMantissa.ofMantissaAndAccuracy m accuracy).shiftRightOne.mantissa = m / 2 := by
      rw [ExtendedMantissa.shiftRightOne, mantissa_ofMantissaAndAccuracy]
    rw [hhalf] at hbounds
    obtain ⟨q, hround, hvalue⟩ :=
      round_of_carry (shift_one accuracy hlog hleast) (by omega) (by omega) (by omega) (by omega)
    refine ⟨q, 2 * (ExtendedMantissa.ofMantissaAndAccuracy m accuracy).shiftRightOne.roundedMantissa, 2,
      hround, ?_, by omega, by omega, by omega⟩
    rw [hvalue, zpow_add_one₀ (by norm_num)]
    push_cast
    ring

/-- Rounding leaves a normal number as it is. -/
theorem round_exact (q : Normal) :
    roundWithAccuracy Format.binary64 .positive q.mantissa q.exponent .exact = q.unpacked := by
  have hshift := shift_none .exact q.log2_mantissa q.least
  have hrounded : (ExtendedMantissa.ofMantissaAndAccuracy q.mantissa .exact).roundedMantissa =
      q.mantissa := rfl
  rw [roundWithAccuracy, hshift]
  simp only [hrounded, hshift, mantissa_ofMantissaAndAccuracy]
  exact dif_neg (Nat.ne_of_gt q.mantissa_pos)

end binary64
