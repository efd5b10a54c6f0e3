import Mathlib.Algebra.Group.Nat.Defs
import Mathlib.Data.List.Basic

namespace lexicographic

variable {A B : Type} [LT A] [LT B]

/-- Two lists are compared by their first parts, and by what follows only when
    these are equal. The parts must have one length. -/
theorem append_lt_append_iff {left right : List A} (hlength : left.length = right.length)
    (rest other : List A) :
    left ++ rest < right ++ other ↔ left < right ∨ (left = right ∧ rest < other) := by
  induction left generalizing right with
  | nil =>
    have hnil : right = [] := List.eq_nil_of_length_eq_zero hlength.symm
    subst hnil
    simp
  | cons a left ih =>
    cases right with
    | nil => cases hlength
    | cons b right =>
      have htail := ih (Nat.succ.inj hlength)
      rw [List.cons_append, List.cons_append, List.cons_lt_cons_iff, htail, List.cons_lt_cons_iff,
        List.cons.injEq]
      tauto

/-- A code of fixed width that keeps the order: values compare like their
    codes, and no two of them share one. -/
structure OrderCode (encode : A → List B) (width : Nat) : Prop where
  positive : 0 < width
  length : ∀ a, (encode a).length = width
  lt_iff : ∀ a b, encode a < encode b ↔ a < b
  injective : Function.Injective encode

namespace OrderCode

variable {encode : A → List B} {width : Nat}

theorem length_flatMap (h : OrderCode encode width) (items : List A) :
    (items.flatMap encode).length = items.length * width := by
  induction items with
  | nil => simp
  | cons a items ih => rw [List.flatMap_cons, List.length_append, h.length, ih, List.length_cons,
      Nat.succ_mul, Nat.add_comm]

/-- Codes of a fixed width can be taken apart again, one item after the other. -/
theorem flatMap_injective (h : OrderCode encode width) :
    Function.Injective fun items : List A => items.flatMap encode := by
  intro left right heq
  dsimp only at heq
  have hwidth := h.positive
  have hlength : left.length = right.length := by
    have hlengths := congrArg List.length heq
    rw [h.length_flatMap, h.length_flatMap] at hlengths
    exact Nat.eq_of_mul_eq_mul_right hwidth hlengths
  induction left generalizing right with
  | nil => exact (List.eq_nil_of_length_eq_zero hlength.symm).symm
  | cons a left ih =>
    cases right with
    | nil => cases hlength
    | cons b right =>
      rw [List.flatMap_cons, List.flatMap_cons] at heq
      obtain ⟨hhead, htail⟩ := List.append_inj heq ((h.length a).trans (h.length b).symm)
      rw [h.injective hhead, ih htail (Nat.succ.inj hlength)]

/-- Lists compare like the concatenations of their codes: the codes are of one
    width, so that the first difference between the texts lies within one code. -/
theorem flatMap_lt_iff (h : OrderCode encode width) (left right : List A) :
    left.flatMap encode < right.flatMap encode ↔ left < right := by
  have hnonempty : ∀ a items, [] < List.flatMap encode (a :: items) := by
    intro a items
    have hpositive := h.positive
    cases hcode : encode a with
    | nil =>
      have hlength := h.length a
      rw [hcode, List.length_nil] at hlength
      omega
    | cons b code => simp [hcode]
  induction left generalizing right with
  | nil =>
    cases right with
    | nil => simp
    | cons b right => simpa using hnonempty b right
  | cons a left ih =>
    cases right with
    | nil => simp
    | cons b right =>
      have htail : left.flatMap encode < right.flatMap encode ↔ left < right := ih right
      rw [List.flatMap_cons, List.flatMap_cons,
        append_lt_append_iff ((h.length a).trans (h.length b).symm), h.lt_iff, htail,
        h.injective.eq_iff, List.cons_lt_cons_iff]

/-- A group of values in front, with its codes and a separator in front of the
    encoded rest. -/
theorem group_lt_iff [Std.Irrefl (· < · : B → B → Prop)] (h : OrderCode encode width)
    {left right : List A} (hlength : left.length = right.length) {rest other : List A}
    {code otherCode : List B} (hrest : code < otherCode ↔ rest < other) (separator : B) :
    left.flatMap encode ++ separator :: code < right.flatMap encode ++ separator :: otherCode ↔
      left ++ rest < right ++ other := by
  have hcodes : (left.flatMap encode).length = (right.flatMap encode).length := by
    rw [h.length_flatMap, h.length_flatMap, hlength]
  rw [append_lt_append_iff hcodes, append_lt_append_iff hlength, h.flatMap_lt_iff,
    h.flatMap_injective.eq_iff, List.cons_lt_cons_self, hrest]

end OrderCode

/-- The `width` low bytes of a number, the most significant one first. -/
def big_endian : Nat → Nat → List UInt8
  | 0, _ => []
  | width + 1, n => big_endian width (n / 256) ++ [UInt8.ofNat (n % 256)]

@[simp] theorem length_big_endian (width n : Nat) : (big_endian width n).length = width := by
  induction width generalizing n with
  | zero => rfl
  | succ width ih => rw [big_endian, List.length_append, ih, List.length_singleton]

/-- Numbers that fit compare like their bytes, the most significant one first. The
    induction is on the number of bytes. -/
theorem big_endian_lt {width m n : Nat} (hlt : m < n) (hfits : n < 256 ^ width) :
    big_endian width m < big_endian width n := by
  induction width generalizing m n with
  | zero =>
    rw [Nat.pow_zero] at hfits
    omega
  | succ width ih =>
    have hlength : (big_endian width (m / 256)).length = (big_endian width (n / 256)).length := by
      rw [length_big_endian, length_big_endian]
    rw [big_endian, big_endian, append_lt_append_iff hlength]
    obtain hhigh | hsame := Nat.lt_or_eq_of_le (Nat.div_le_div_right (c := 256) (Nat.le_of_lt hlt))
    · have hroom : n / 256 < 256 ^ width := by
        rw [Nat.pow_succ] at hfits
        exact Nat.div_lt_of_lt_mul (by rwa [Nat.mul_comm])
      exact .inl (ih hhigh hroom)
    · have hlow : UInt8.ofNat (m % 256) < UInt8.ofNat (n % 256) := by
        rw [UInt8.lt_iff_toNat_lt, UInt8.toNat_ofNat', UInt8.toNat_ofNat']
        omega
      refine .inr ⟨by rw [hsame], ?_⟩
      rw [List.cons_lt_cons_iff]
      exact .inl hlow

/-- The leading bytes of a number are the bytes of the number without its low ones. -/
theorem take_big_endian (width low n : Nat) :
    (big_endian (width + low) n).take width = big_endian width (n / 256 ^ low) := by
  induction low generalizing n with
  | zero =>
    have hwhole : (big_endian width n).length ≤ width := Nat.le_of_eq (length_big_endian width n)
    rw [Nat.pow_zero, Nat.div_one, Nat.add_zero, List.take_of_length_le hwhole]
  | succ low ih =>
    have hwithin : width ≤ (big_endian (width + low) (n / 256)).length := by
      rw [length_big_endian]
      omega
    rw [← Nat.add_assoc, big_endian, List.take_append_of_le_length hwithin, ih, Nat.pow_succ',
      Nat.div_div_eq_div_mul]

/-- The bytes of a string, which are what strings are compared by. -/
def as_bytes (text : String) : List UInt8 := text.toByteArray.data.toList

def str_lt (left right : String) : Prop := as_bytes left < as_bytes right

instance (left right : String) : Decidable (str_lt left right) :=
  inferInstanceAs (Decidable (as_bytes left < as_bytes right))

/-- The bytes of a text are those of its characters, one after the other. -/
theorem as_bytes_ofList (cs : List Char) :
    as_bytes (String.ofList cs) = cs.flatMap String.utf8EncodeChar := by
  rw [as_bytes, String.toByteArray_ofList, List.utf8Encode, List.data_toByteArray]

end lexicographic
