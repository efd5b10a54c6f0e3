import Mathlib

open Float.Model Float.Model.UnpackedFloat

namespace binary64

/-- A positive number with all 53 bits of its mantissa, the form in which the
    operations return every number that is neither too small nor too large. -/
structure Normal where
  mantissa : Nat
  exponent : Int
  lower : 2 ^ 52 ≤ mantissa
  upper : mantissa < 2 ^ 53
  least : -1074 ≤ exponent
  greatest : exponent ≤ 971

namespace Normal

theorem mantissa_pos (self : Normal) : 0 < self.mantissa :=
  Nat.lt_of_lt_of_le (by decide) self.lower

/-- The leading bit of a normal mantissa is the fifty-third, so that the logarithm
    of the mantissa is known without looking at its other bits. -/
theorem log2_mantissa (self : Normal) : self.mantissa.log2 = 52 :=
  (Nat.log2_eq_iff (Nat.ne_of_gt self.mantissa_pos)).mpr ⟨self.lower, self.upper⟩

def unpacked (self : Normal) : UnpackedFloat :=
  .finite .positive self.mantissa self.exponent self.mantissa_pos

def value (self : Normal) : ℚ := self.mantissa * 2 ^ self.exponent

theorem value_pos (self : Normal) : 0 < self.value := by
  have hmantissa : (0 : ℚ) < self.mantissa := by exact_mod_cast self.mantissa_pos
  unfold value
  positivity

/-- The exponent as it is stored, which is neither of the two special ones. -/
def biased (self : Normal) : Nat := (self.exponent + 1075).toNat

/-- The biased exponent keeps clear of the two values that stand for zero and the
    subnormals, and for the infinities. -/
theorem biased_bounds (self : Normal) : 1 ≤ self.biased ∧ self.biased ≤ 2046 := by
  have hleast := self.least
  have hgreatest := self.greatest
  unfold biased
  omega

/-- Packing a normal number puts its biased exponent and its mantissa into the two
    fields of the format, with nothing rounded away. -/
theorem pack_unpacked (self : Normal) : UnpackedFloat.pack Format.binary64 self.unpacked =
    packComponents Format.binary64 .positive (BitVec.ofNat 11 self.biased)
      (BitVec.ofNat 52 self.mantissa) := by
  have hbounds := self.biased_bounds
  have hbiased : (self.exponent + (Format.binary64.exponentBias : Nat) +
      (Format.binary64.mantissaBitsWithoutImplicit : Nat)).toNat = self.biased := by
    have hbias : self.exponent + (Format.binary64.exponentBias : Nat) + (52 : Nat) =
        self.exponent + 1075 := by
      change self.exponent + 1023 + 52 = _
      omega
    rw [hbias, biased]
  have hbits : self.mantissa.log2 + 1 = Format.binary64.mantissaBits := by
    rw [self.log2_mantissa]
    rfl
  simp only [unpacked, UnpackedFloat.pack]
  rw [hbiased, if_neg (by omega), if_pos hbits]

/-- Nothing is lost when a normal number is stored: its two fields determine the
    sign, the exponent and all fifty-three bits of the mantissa, of which the
    first is implicit. -/
theorem unpack_pack (self : Normal) : (Float.Model.pack self.unpacked).unpack = self.unpacked := by
  have hbounds := self.biased_bounds
  have hexponent : (BitVec.ofNat 11 self.biased).toNat = self.biased := by
    rw [BitVec.toNat_ofNat, Nat.mod_eq_of_lt (by omega)]
  have hzero : BitVec.ofNat 11 self.biased ≠ 0#11 := by
    intro h
    have hvalue := congrArg BitVec.toNat h
    rw [hexponent, BitVec.toNat_zero] at hvalue
    omega
  have hones : BitVec.ofNat 11 self.biased ≠ -1#11 := by
    intro h
    have hvalue := congrArg BitVec.toNat h
    rw [hexponent] at hvalue
    change self.biased = 2047 at hvalue
    omega
  have hmantissa : (1#1 ++ BitVec.ofNat 52 self.mantissa).toNat = self.mantissa := by
    have hlower := self.lower
    have hupper := self.upper
    rw [BitVec.toNat_append, ← Nat.shiftLeft_add_eq_or_of_lt (BitVec.isLt _), BitVec.toNat_ofNat,
      BitVec.toNat_ofNat, Nat.shiftLeft_eq]
    omega
  change UnpackedFloat.unpack Format.binary64 (UnpackedFloat.pack Format.binary64 self.unpacked) = _
  rw [self.pack_unpacked, UnpackedFloat.unpack]
  simp only [unpackMantissa_packComponents, unpackExponent_packComponents, unpackSign_packComponents,
    hones, hzero, if_false, hexponent, hmantissa]
  have hleast := self.least
  unfold unpacked
  congr 1
  change (self.biased : Int) - 1075 = self.exponent
  unfold biased
  omega

/-- The exponent decides first: a mantissa has less than twice the value of any
    other. -/
theorem value_lt_of_exponent_lt {self other : Normal} (h : self.exponent < other.exponent) :
    self.value < other.value := by
  have hupper : (self.mantissa : ℚ) < 2 ^ 53 := by exact_mod_cast self.upper
  have hlower : (2 : ℚ) ^ 52 ≤ other.mantissa := by exact_mod_cast other.lower
  have hscale : (0 : ℚ) < 2 ^ self.exponent := by positivity
  calc
    self.value < 2 ^ 53 * 2 ^ self.exponent := mul_lt_mul_of_pos_right hupper hscale
    _ = 2 ^ 52 * 2 ^ (self.exponent + 1) := by
      rw [zpow_add_one₀ (by norm_num)]
      ring
    _ ≤ 2 ^ 52 * 2 ^ other.exponent := by
      gcongr
      · norm_num
      · omega
    _ ≤ other.value := by
      unfold value
      gcongr

/-- Normal numbers compare by their exponents first. -/
theorem value_lt_iff (self other : Normal) : self.value < other.value ↔
    self.exponent < other.exponent ∨
      (self.exponent = other.exponent ∧ self.mantissa < other.mantissa) := by
  obtain hlt | heq | hgt := lt_trichotomy self.exponent other.exponent
  · simp [value_lt_of_exponent_lt hlt, hlt]
  · have hscale : (0 : ℚ) < 2 ^ other.exponent := by positivity
    simp [value, heq, mul_lt_mul_iff_left₀ hscale]
  · have hvalue := value_lt_of_exponent_lt hgt
    simp only [hvalue.not_gt, hgt.not_gt, hgt.ne', false_and, or_self]

end Normal

/-- The numbers that are not negative: zero and the normal ones. -/
inductive Number where
  | zero
  | normal (q : Normal)

namespace Number

def unpacked : Number → UnpackedFloat
  | .zero => .zero .positive
  | .normal q => q.unpacked

def float (self : Number) : Float := .ofModel (Float.Model.pack self.unpacked)

def value : Number → ℚ
  | .zero => 0
  | .normal q => q.value

/-- The float of a number is unpacked as what it was packed from: the two sides of
    the format agree on every normal number and on zero. -/
theorem unpack_float (self : Number) : self.float.toModel.unpack = self.unpacked := by
  cases self with
  | zero => rfl
  | normal q => exact q.unpack_pack

/-- Numbers compare like their values. Zero is below every normal number, and of
    two normal numbers the exponents are compared before the mantissas. -/
theorem compare_unpacked (self other : Number) : ∃ order,
    self.unpacked.compare other.unpacked = some order ∧
      (order = .lt ↔ self.value < other.value) ∧ (order = .gt ↔ other.value < self.value) := by
  cases self with
  | zero =>
    cases other with
    | zero => exact ⟨.eq, rfl, by simp [value], by simp [value]⟩
    | normal q => exact ⟨.lt, rfl, by simp [value, q.value_pos], by simp [value, q.value_pos.le]⟩
  | normal p =>
    cases other with
    | zero => exact ⟨.gt, rfl, by simp [value, p.value_pos.le], by simp [value, p.value_pos]⟩
    | normal q =>
      refine ⟨_, rfl, ?_, ?_⟩
      · simp only [value, Normal.value_lt_iff, Ordering.then_eq_lt, Int.compare_eq_lt,
          Int.compare_eq_eq, Nat.compare_eq_lt]
      · simp only [value, Normal.value_lt_iff, Ordering.then_eq_gt, Int.compare_eq_gt,
          Int.compare_eq_eq, Nat.compare_eq_gt, eq_comm (a := q.exponent)]

/-- Floats compare like the rational values that they stand for. -/
theorem lt_iff (self other : Number) : self.float < other.float ↔ self.value < other.value := by
  obtain ⟨order, horder, hlt, _⟩ := self.compare_unpacked other
  change decide (self.float.toModel.unpack.lt other.float.toModel.unpack = true) = true ↔ _
  rw [decide_eq_true_eq, self.unpack_float, other.unpack_float, UnpackedFloat.lt, horder, ← hlt]
  cases order <;> decide

theorem le_iff (self other : Number) : self.float ≤ other.float ↔ self.value ≤ other.value := by
  obtain ⟨order, horder, _, hgt⟩ := self.compare_unpacked other
  change decide (self.float.toModel.unpack.le other.float.toModel.unpack = true) = true ↔ _
  rw [decide_eq_true_eq, self.unpack_float, other.unpack_float, UnpackedFloat.le, horder, ← not_lt,
    ← hgt]
  cases order <;> decide

end Number

end binary64
