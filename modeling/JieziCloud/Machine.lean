import JieziCloud.Result
import Mathlib.Algebra.Group.Nat.Defs

namespace machine

/-- What a program stops with instead of returning. -/
inductive Panic where
  | arithmetic_overflow
  deriving DecidableEq

/-- The outcome of an operation of one width, given its exact result. -/
def checked {A : Type} (width : Nat) (make : Nat → A) (exact : Nat) : Except Panic A :=
  if exact < 2 ^ width then .ok (make exact) else .error .arithmetic_overflow

def u32_add (a b : UInt32) : Except Panic UInt32 := checked 32 UInt32.ofNat (a.toNat + b.toNat)

def u64_add (a b : UInt64) : Except Panic UInt64 := checked 64 UInt64.ofNat (a.toNat + b.toNat)

def u64_mul (a b : UInt64) : Except Panic UInt64 := checked 64 UInt64.ofNat (a.toNat * b.toNat)

def u32_saturating_sub (a b : UInt32) : UInt32 := if b ≤ a then a - b else 0

def u64_saturating_sub (a b : UInt64) : UInt64 := if b ≤ a then a - b else 0

/-- Division rounded up. The increment has room whenever it is made. -/
def u64_div_ceil (a b : UInt64) : UInt64 := if 0 < a % b then a / b + 1 else a / b

/-- A checked operation succeeds with exactly the number that has the exact result
    as its value. Of the number type only the conversions from and to natural
    numbers matter. -/
theorem checked_eq_ok_iff {A : Type} {width : Nat} {make : Nat → A} {value : A → Nat}
    (hlt : ∀ a, value a < 2 ^ width) (hmake : ∀ n, n < 2 ^ width → value (make n) = n)
    (hvalue : ∀ a, make (value a) = a) {exact : Nat} {a : A} :
    checked width make exact = .ok a ↔ value a = exact := by
  unfold checked
  constructor
  · intro h
    split at h
    · next hfits =>
      cases h
      exact hmake exact hfits
    · cases h
  · rintro rfl
    rw [if_pos (hlt a), hvalue]

theorem checked_u32_eq_ok_iff {exact : Nat} {a : UInt32} :
    checked 32 UInt32.ofNat exact = .ok a ↔ a.toNat = exact :=
  checked_eq_ok_iff UInt32.toNat_lt (fun _ => UInt32.toNat_ofNat_of_lt') fun _ => UInt32.ofNat_toNat

theorem checked_u64_eq_ok_iff {exact : Nat} {a : UInt64} :
    checked 64 UInt64.ofNat exact = .ok a ↔ a.toNat = exact :=
  checked_eq_ok_iff UInt64.toNat_lt (fun _ => UInt64.toNat_ofNat_of_lt') fun _ => UInt64.ofNat_toNat

/-- A sum is returned when it is the exact one, and otherwise there is none. -/
@[simp] theorem u32_add_eq_ok_iff {a b c : UInt32} :
    u32_add a b = .ok c ↔ c.toNat = a.toNat + b.toNat :=
  checked_u32_eq_ok_iff

@[simp] theorem u64_add_eq_ok_iff {a b c : UInt64} :
    u64_add a b = .ok c ↔ c.toNat = a.toNat + b.toNat :=
  checked_u64_eq_ok_iff

/-- The product of two numbers, in the same sense. -/
@[simp] theorem u64_mul_eq_ok_iff {a b c : UInt64} :
    u64_mul a b = .ok c ↔ c.toNat = a.toNat * b.toNat :=
  checked_u64_eq_ok_iff

/-- There is a sum whenever the exact one has room. -/
theorem u32_add_spec {a b : UInt32} (h : a.toNat + b.toNat < 2 ^ 32) :
    ∃ c, u32_add a b = .ok c ∧ c.toNat = a.toNat + b.toNat :=
  ⟨UInt32.ofNat (a.toNat + b.toNat), u32_add_eq_ok_iff.mpr (UInt32.toNat_ofNat_of_lt' h),
    UInt32.toNat_ofNat_of_lt' h⟩

theorem u64_add_spec {a b : UInt64} (h : a.toNat + b.toNat < 2 ^ 64) :
    ∃ c, u64_add a b = .ok c ∧ c.toNat = a.toNat + b.toNat :=
  ⟨UInt64.ofNat (a.toNat + b.toNat), u64_add_eq_ok_iff.mpr (UInt64.toNat_ofNat_of_lt' h),
    UInt64.toNat_ofNat_of_lt' h⟩

/-- Saturating subtraction is the subtraction of natural numbers, which stops at
    zero as well. -/
@[simp] theorem u32_saturating_sub_toNat (a b : UInt32) :
    (u32_saturating_sub a b).toNat = a.toNat - b.toNat := by
  unfold u32_saturating_sub
  split
  · next hle => exact UInt32.toNat_sub_of_le a b hle
  · next hlt =>
    rw [UInt32.le_iff_toNat_le] at hlt
    simp only [UInt32.toNat_zero]
    omega

/-- The same at the width of sizes and quotas. -/
@[simp] theorem u64_saturating_sub_toNat (a b : UInt64) :
    (u64_saturating_sub a b).toNat = a.toNat - b.toNat := by
  unfold u64_saturating_sub
  split
  · next hle => exact UInt64.toNat_sub_of_le a b hle
  · next hlt =>
    rw [UInt64.le_iff_toNat_le] at hlt
    simp only [UInt64.toNat_zero]
    omega

/-- The quotient rounded up is exact, for every divisor but zero. The increment
    cannot overflow, since a remainder takes a divisor of two at least. -/
theorem u64_div_ceil_toNat (a b : UInt64) (hb : 0 < b.toNat) :
    (u64_div_ceil a b).toNat = (a.toNat + b.toNat - 1) / b.toNat := by
  have hdiv := Nat.div_add_mod a.toNat b.toNat
  have hlt := Nat.mod_lt a.toNat hb
  unfold u64_div_ceil
  split
  · next hmod =>
    rw [UInt64.lt_iff_toNat_lt, UInt64.toNat_mod, UInt64.toNat_zero] at hmod
    have hquotient : (a.toNat + b.toNat - 1) / b.toNat = a.toNat / b.toNat + 1 := by
      rw [Nat.div_eq_iff hb]
      rw [Nat.add_mul, Nat.one_mul, Nat.mul_comm]
      omega
    have hroom : a.toNat / b.toNat + 1 < 2 ^ 64 := by
      have ha := a.toNat_lt
      have htwo : 2 ≤ b.toNat := by omega
      have hhalf : a.toNat / b.toNat ≤ a.toNat / 2 := Nat.div_le_div_left htwo (by omega)
      omega
    rw [hquotient, UInt64.toNat_add, UInt64.toNat_div, UInt64.toNat_one, Nat.mod_eq_of_lt hroom]
  · next hmod =>
    rw [UInt64.lt_iff_toNat_lt, UInt64.toNat_mod, UInt64.toNat_zero] at hmod
    rw [UInt64.toNat_div, eq_comm, Nat.div_eq_iff hb, Nat.mul_comm]
    omega

end machine
