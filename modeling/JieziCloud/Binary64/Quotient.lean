import JieziCloud.Binary64.Rounding

open Float.Model Float.Model.UnpackedFloat

namespace binary64

/-- A number of at most 53 bits is converted without loss. It is shifted up to the
    full mantissa, and the exponent makes up for the shift. -/
theorem ofNat_spec {n : Nat} (hpos : 0 < n) (hupper : n < 2 ^ 53) : ∃ q : Normal,
    UnpackedFloat.ofNat Format.binary64 n = q.unpacked ∧ q.value = n ∧ -52 ≤ q.exponent ∧
      q.exponent ≤ 0 := by
  have hlog : n.log2 ≤ 52 := Nat.le_of_lt_succ ((Nat.log2_lt (by omega)).mpr hupper)
  have hbounds := (Nat.log2_eq_iff (by omega)).mp (rfl : n.log2 = n.log2)
  have hlower' : 2 ^ 52 ≤ n * 2 ^ (52 - n.log2) := by
    calc
      2 ^ 52 = 2 ^ n.log2 * 2 ^ (52 - n.log2) := by rw [← Nat.pow_add, Nat.add_sub_cancel' hlog]
      _ ≤ n * 2 ^ (52 - n.log2) := Nat.mul_le_mul_right _ hbounds.1
  have hupper' : n * 2 ^ (52 - n.log2) < 2 ^ 53 := by
    calc
      n * 2 ^ (52 - n.log2) < 2 ^ (n.log2 + 1) * 2 ^ (52 - n.log2) :=
        Nat.mul_lt_mul_of_pos_right hbounds.2 (Nat.two_pow_pos _)
      _ = 2 ^ 53 := by
        rw [← Nat.pow_add]
        congr 1
        omega
  refine ⟨⟨n * 2 ^ (52 - n.log2), (n.log2 : Int) - 52, hlower', hupper', by omega, by omega⟩, ?_, ?_,
    by simp, by simp [hlog]⟩
  · have htarget : Format.binary64.targetExponent (totalExponent n 0) = (n.log2 : Int) - 52 := by
      change max ((n.log2 : Int) + 1 + 0 - 53) (-1074) = _
      omega
    have hamount : (0 - ((n.log2 : Int) - 52)).toNat = 52 - n.log2 := by omega
    have hexponent : (0 : Int) - (52 - n.log2 : Nat) = (n.log2 : Int) - 52 := by omega
    rw [UnpackedFloat.ofNat, UnpackedFloat.ofInt, UnpackedFloat.normalize,
      Int.compare_eq_gt.mpr (by omega)]
    simp only [UnpackedFloat.round, htarget, decreaseExponent, hamount, hexponent, Int.toNat_natCast,
      Nat.shiftLeft_eq]
    exact round_exact ⟨n * 2 ^ (52 - n.log2), (n.log2 : Int) - 52, hlower', hupper', by omega, by omega⟩
  · have hsplit : (2 : ℚ) ^ (52 - n.log2) * 2 ^ ((n.log2 : Int) - 52) = 1 := by
      rw [← zpow_natCast, ← zpow_add₀ (by norm_num)]
      convert zpow_zero (2 : ℚ)
      omega
    rw [Normal.value]
    push_cast
    rw [mul_assoc, hsplit, mul_one]

/-- The quotient is a normal number, off by at most its last place: the mantissas
    are divided to more than fifty-two bits, and what is left is rounded once. -/
theorem div_spec (a b : Normal) (hlow : -1000 ≤ a.exponent - b.exponent)
    (hhigh : a.exponent - b.exponent ≤ 1000) : ∃ q : Normal,
      UnpackedFloat.div Format.binary64 a.unpacked b.unpacked = q.unpacked ∧
        |q.value - a.value / b.value| ≤ a.value / b.value / 2 ^ 52 := by
  have ha := a.lower
  have ha' := a.upper
  have hb := b.lower
  have hb' := b.upper
  have htarget : min (a.exponent - b.exponent) (Format.binary64.targetExponent
      (totalExponent a.mantissa a.exponent - totalExponent b.mantissa b.exponent)) =
        a.exponent - b.exponent - 53 := by
    simp only [totalExponent, a.log2_mantissa, b.log2_mantissa]
    change min _ (max (((52 : Nat) : Int) + 1 + a.exponent - ((52 : Nat) + 1 + b.exponent) - 53) (-1074)) = _
    omega
  have hamount : (a.exponent - b.exponent - (a.exponent - b.exponent - 53)).toNat = 53 := by omega
  have hquotient : 2 ^ 52 ≤ a.mantissa * 2 ^ 53 / b.mantissa := by
    rw [Nat.le_div_iff_mul_le (by omega)]
    omega
  have hquotient' : a.mantissa * 2 ^ 53 / b.mantissa < 2 ^ 54 := by
    rw [Nat.div_lt_iff_lt_mul (by omega)]
    omega
  obtain ⟨q, n, place, hround, hvalue, hplace, hbelow, habove⟩ :=
    round_spec (accuracyOfFraction (a.mantissa * 2 ^ 53 % b.mantissa) b.mantissa) hquotient hquotient'
      (e := a.exponent - b.exponent - 53) (by omega) (by omega)
  refine ⟨q, ?_, ?_⟩
  · rw [Normal.unpacked, Normal.unpacked, UnpackedFloat.div]
    simp only [divCore, htarget, hamount, Nat.shiftLeft_eq]
    exact hround
  · have hscale : (0 : ℚ) < 2 ^ (a.exponent - b.exponent - 53) := by positivity
    have hdivisor : (0 : ℚ) < b.mantissa := by exact_mod_cast b.mantissa_pos
    have hexact : a.value / b.value =
        (a.mantissa * 2 ^ 53 : Nat) / b.mantissa * 2 ^ (a.exponent - b.exponent - 53) := by
      rw [Normal.value, Normal.value, zpow_sub₀ (by norm_num), zpow_sub₀ (by norm_num)]
      push_cast
      field_simp
    have hfloor : ((a.mantissa * 2 ^ 53 / b.mantissa : Nat) : ℚ) ≤
        (a.mantissa * 2 ^ 53 : Nat) / b.mantissa := Nat.cast_div_le
    have hceil : ((a.mantissa * 2 ^ 53 : Nat) : ℚ) / b.mantissa ≤
        (a.mantissa * 2 ^ 53 / b.mantissa : Nat) + 1 := by
      rw [div_le_iff₀ hdivisor]
      exact_mod_cast (Nat.lt_mul_of_div_lt (Nat.lt_succ_self _) (by omega)).le
    rw [hvalue, hexact]
    generalize ((a.mantissa * 2 ^ 53 : Nat) : ℚ) / b.mantissa = exact at hfloor hceil ⊢
    generalize a.mantissa * 2 ^ 53 / b.mantissa = m at *
    have hplace' : (2 : ℚ) ^ 52 * place ≤ m := by exact_mod_cast hplace
    have hbelow' : (m : ℚ) + 1 ≤ n + place := by exact_mod_cast hbelow
    have habove' : (n : ℚ) ≤ m + place := by exact_mod_cast habove
    have herror : |(n : ℚ) - exact| ≤ exact / 2 ^ 52 := by
      rw [abs_le]
      constructor <;> linarith
    calc
      |n * 2 ^ (a.exponent - b.exponent - 53) - exact * 2 ^ (a.exponent - b.exponent - 53)| =
          |(n : ℚ) - exact| * 2 ^ (a.exponent - b.exponent - 53) := by
        rw [← sub_mul, abs_mul, abs_of_pos hscale]
      _ ≤ exact / 2 ^ 52 * 2 ^ (a.exponent - b.exponent - 53) := by gcongr
      _ = exact * 2 ^ (a.exponent - b.exponent - 53) / 2 ^ 52 := by ring

/-- One, with all the bits of its mantissa. -/
def one : Normal where
  mantissa := 2 ^ 52
  exponent := -52
  lower := le_rfl
  upper := by decide
  least := by decide
  greatest := by decide

/-- A number divided by itself is one, without any error. -/
theorem div_self (a : Normal) :
    UnpackedFloat.div Format.binary64 a.unpacked a.unpacked = one.unpacked := by
  have hquotient : a.mantissa * 2 ^ 53 / a.mantissa = 2 ^ 53 := Nat.mul_div_cancel_left _ a.mantissa_pos
  have hremainder : a.mantissa * 2 ^ 53 % a.mantissa = 0 := Nat.mul_mod_right _ _
  have htarget : min (0 : Int) (Format.binary64.targetExponent 0) = -53 := by decide
  rw [Normal.unpacked, UnpackedFloat.div]
  simp only [divCore, Int.sub_self, htarget, Nat.shiftLeft_eq]
  change roundWithAccuracy _ _ (a.mantissa * 2 ^ 53 / a.mantissa) _
    (accuracyOfFraction (a.mantissa * 2 ^ 53 % a.mantissa) _) = _
  rw [hquotient, hremainder, accuracyOfFraction, if_pos rfl]
  rfl

theorem toFloat_zero : (0 : UInt32).toFloat = Number.zero.float := rfl

/-- A positive `u32` is converted to a normal number without loss. -/
theorem toFloat_spec {n : UInt32} (hpos : 0 < n.toNat) : ∃ q : Normal,
    n.toFloat = (Number.normal q).float ∧ q.value = n.toNat ∧ -52 ≤ q.exponent ∧ q.exponent ≤ 0 := by
  have hlt := n.toNat_lt
  obtain ⟨q, hconvert, hvalue, hleast, hgreatest⟩ := ofNat_spec hpos (by omega)
  refine ⟨q, ?_, hvalue, hleast, hgreatest⟩
  change Float.ofModel (Float.Model.pack (UnpackedFloat.ofNat Format.binary64 n.toNat)) = _
  rw [hconvert]
  rfl

/-- The quotient of two `u32` is a number, off by at most its last place. A
    numerator of zero has no mantissa to divide, and gives zero. -/
theorem toFloat_div_spec (c : UInt32) {t : UInt32} (ht : 0 < t.toNat) : ∃ q : Number,
    c.toFloat / t.toFloat = q.float ∧
      |q.value - c.toNat / t.toNat| ≤ (c.toNat : ℚ) / t.toNat / 2 ^ 52 := by
  obtain ⟨b, hb, hbvalue, hbleast, hbgreatest⟩ := toFloat_spec ht
  obtain hzero | hpos := Nat.eq_zero_or_pos c.toNat
  · obtain rfl : c = 0 := UInt32.toNat_inj.mp hzero
    refine ⟨.zero, ?_, by simp [Number.value]⟩
    rw [hb, toFloat_zero]
    change Float.ofModel (Float.Model.pack (UnpackedFloat.div Format.binary64
      Number.zero.float.toModel.unpack (Number.normal b).float.toModel.unpack)) = _
    rw [Number.unpack_float, Number.unpack_float]
    rfl
  · obtain ⟨a, ha, havalue, haleast, hagreatest⟩ := toFloat_spec hpos
    obtain ⟨q, hdiv, herror⟩ := div_spec a b (by omega) (by omega)
    rw [havalue, hbvalue] at herror
    refine ⟨.normal q, ?_, herror⟩
    rw [ha, hb]
    change Float.ofModel (Float.Model.pack (UnpackedFloat.div Format.binary64
      (Number.normal a).float.toModel.unpack (Number.normal b).float.toModel.unpack)) = _
    rw [Number.unpack_float, Number.unpack_float]
    exact congrArg (fun unpacked => Float.ofModel (Float.Model.pack unpacked)) hdiv

theorem zero_toFloat_div {t : UInt32} (ht : 0 < t.toNat) : (0 : UInt32).toFloat / t.toFloat = 0.0 := by
  obtain ⟨b, hb, -⟩ := toFloat_spec ht
  rw [hb, toFloat_zero]
  change Float.ofModel (Float.Model.pack (UnpackedFloat.div Format.binary64
    Number.zero.float.toModel.unpack (Number.normal b).float.toModel.unpack)) = _
  rw [Number.unpack_float, Number.unpack_float]
  rfl

/-- A count divided by itself is one exactly, since the quotient has a
    representation and rounding leaves it alone. -/
theorem toFloat_div_self {t : UInt32} (ht : 0 < t.toNat) : t.toFloat / t.toFloat = 1.0 := by
  obtain ⟨a, ha, -⟩ := toFloat_spec ht
  rw [ha]
  change Float.ofModel (Float.Model.pack (UnpackedFloat.div Format.binary64
    (Number.normal a).float.toModel.unpack (Number.normal a).float.toModel.unpack)) = _
  rw [Number.unpack_float]
  change Float.ofModel (Float.Model.pack (UnpackedFloat.div Format.binary64 a.unpacked a.unpacked)) = _
  rw [div_self]
  rfl

/-- Quotients by one divisor keep the order of the dividends: two of them lie
    further apart than rounding can move them. -/
theorem toFloat_div_lt {c d t : UInt32} (ht : 0 < t.toNat) (hlt : c < d) :
    c.toFloat / t.toFloat < d.toFloat / t.toFloat := by
  obtain ⟨p, hp, hperror⟩ := toFloat_div_spec c ht
  obtain ⟨q, hq, hqerror⟩ := toFloat_div_spec d ht
  have hunit : (0 : ℚ) < (t.toNat : ℚ)⁻¹ := inv_pos.mpr (by exact_mod_cast ht)
  have hstep : (c.toNat : ℚ) + 1 ≤ d.toNat := by
    exact_mod_cast UInt32.lt_iff_toNat_lt.mp hlt
  have hbound : (d.toNat : ℚ) ≤ 2 ^ 32 := by exact_mod_cast d.toNat_lt.le
  have hnext := mul_le_mul_of_nonneg_right hstep hunit.le
  have hsmall := mul_le_mul_of_nonneg_right hbound hunit.le
  rw [div_eq_mul_inv (c.toNat : ℚ), abs_le] at hperror
  rw [div_eq_mul_inv (d.toNat : ℚ), abs_le] at hqerror
  rw [hp, hq, Number.lt_iff]
  linarith

/-- Rounding never makes two quotients by the same count equal: 32-bit numerators
    are too far apart for 53 bits of mantissa to confuse. -/
theorem toFloat_div_lt_iff (c d : UInt32) {t : UInt32} (ht : 0 < t.toNat) :
    c.toFloat / t.toFloat < d.toFloat / t.toFloat ↔ c < d := by
  refine ⟨?_, toFloat_div_lt ht⟩
  intro h
  obtain ⟨p, hp, -⟩ := toFloat_div_spec c ht
  obtain ⟨q, hq, -⟩ := toFloat_div_spec d ht
  by_contra hnot
  obtain hgt | rfl := UInt32.lt_or_eq_of_le (UInt32.not_lt.mp hnot)
  · have hback := toFloat_div_lt ht hgt
    rw [hp, hq, Number.lt_iff] at h hback
    exact absurd h hback.not_gt
  · rw [hp, Number.lt_iff] at h
    exact absurd h (lt_irrefl _)

/-- The order of quotients by one count, without ties, is the order of the
    numerators. -/
theorem toFloat_div_le_iff (c d : UInt32) {t : UInt32} (ht : 0 < t.toNat) :
    c.toFloat / t.toFloat ≤ d.toFloat / t.toFloat ↔ c ≤ d := by
  obtain ⟨p, hp, -⟩ := toFloat_div_spec c ht
  obtain ⟨q, hq, -⟩ := toFloat_div_spec d ht
  rw [← UInt32.not_lt, ← toFloat_div_lt_iff d c ht, hp, hq, Number.le_iff, Number.lt_iff, not_lt]

theorem toFloat_div_inj {c d t : UInt32} (ht : 0 < t.toNat)
    (h : c.toFloat / t.toFloat = d.toFloat / t.toFloat) : c = d := by
  have hle := (toFloat_div_le_iff c d ht).mp
  have hge := (toFloat_div_le_iff d c ht).mp
  have hself := (toFloat_div_le_iff c c ht).mpr (UInt32.le_refl c)
  rw [h] at hle hge hself
  exact UInt32.le_antisymm (hle hself) (hge hself)

theorem zero_le_toFloat_div (c : UInt32) {t : UInt32} (ht : 0 < t.toNat) :
    0.0 ≤ c.toFloat / t.toFloat := by
  rw [← zero_toFloat_div ht, toFloat_div_le_iff 0 c ht]
  exact UInt32.zero_le

/-- No positive quotient is so small that it is rounded to zero. -/
theorem toFloat_div_eq_zero_iff (c : UInt32) {t : UInt32} (ht : 0 < t.toNat) :
    c.toFloat / t.toFloat = 0.0 ↔ c = 0 := by
  constructor
  · intro h
    rw [← zero_toFloat_div ht] at h
    exact toFloat_div_inj ht h
  · rintro rfl
    exact zero_toFloat_div ht

/-- No quotient is rounded up to one. -/
theorem toFloat_div_eq_one_iff (c : UInt32) {t : UInt32} (ht : 0 < t.toNat) :
    c.toFloat / t.toFloat = 1.0 ↔ c = t := by
  constructor
  · intro h
    rw [← toFloat_div_self ht] at h
    exact toFloat_div_inj ht h
  · rintro rfl
    exact toFloat_div_self ht

/-- Rounding pulls no quotient of a larger count down to one, and no other
    quotient over it. -/
theorem toFloat_div_le_one_iff (c : UInt32) {t : UInt32} (ht : 0 < t.toNat) :
    c.toFloat / t.toFloat ≤ 1.0 ↔ c ≤ t := by
  rw [← toFloat_div_self ht, toFloat_div_le_iff c t ht]

end binary64
