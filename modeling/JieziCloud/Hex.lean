import Mathlib.Data.List.Basic

namespace hex

def hex_value (c : Char) : Option Nat :=
  if '0' ≤ c ∧ c ≤ '9' then some (c.toNat - 48)
  else if 'a' ≤ c ∧ c ≤ 'f' then some (c.toNat - 87)
  else if 'A' ≤ c ∧ c ≤ 'F' then some (c.toNat - 55)
  else none

/-- Reading a digit that was written gives its value: the reader and the writer
    agree on the sixteen lower-case digits. -/
theorem hex_value_digitChar {n : Nat} (h : n < 16) : hex_value n.digitChar = some n := by
  have hall : ∀ n : Fin 16, hex_value (Nat.digitChar n) = some n.val := by decide
  exact hall ⟨n, h⟩

/-- A byte as two lower-case digits, the high half first. -/
def byte_chars (b : UInt8) : List Char :=
  [(b.toNat / 16).digitChar, (b.toNat % 16).digitChar]

def decode : List Char → Option (List UInt8)
  | [] => some []
  | high :: low :: cs => do
    let h ← hex_value high
    let l ← hex_value low
    let bytes ← decode cs
    return UInt8.ofNat (h * 16 + l) :: bytes
  | [_] => none

/-- Decoding inverts the encoding of any number of bytes. -/
theorem decode_flatMap_byte_chars (bytes : List UInt8) :
    decode (bytes.flatMap byte_chars) = some bytes := by
  induction bytes with
  | nil => rfl
  | cons b bytes ih =>
    have hb := b.toNat_lt
    have hvalue : UInt8.ofNat (b.toNat / 16 * 16 + b.toNat % 16) = b := by
      rw [Nat.div_add_mod']
      simp
    simp only [List.flatMap_cons, byte_chars, List.cons_append, List.nil_append, decode,
      hex_value_digitChar (show b.toNat / 16 < 16 by omega),
      hex_value_digitChar (show b.toNat % 16 < 16 by omega), ih, Option.pure_def,
      Option.bind_eq_bind, Option.bind_some, hvalue]

theorem digitChar_ne_hyphen {n : Nat} (h : n < 16) : n.digitChar ≠ '-' := by
  have hall : ∀ n : Fin 16, Nat.digitChar n ≠ '-' := by decide
  exact hall ⟨n, h⟩

/-- The digits of bytes are never hyphens, which can be dropped from a text
    without losing any of them. -/
theorem hyphen_notMem_byte_chars (bytes : List UInt8) : '-' ∉ bytes.flatMap byte_chars := by
  rw [List.mem_flatMap]
  rintro ⟨b, _, hmem⟩
  have hb := b.toNat_lt
  simp only [byte_chars, List.mem_cons, List.not_mem_nil, or_false] at hmem
  obtain heq | heq := hmem
  · exact digitChar_ne_hyphen (show b.toNat / 16 < 16 by omega) heq.symm
  · exact digitChar_ne_hyphen (show b.toNat % 16 < 16 by omega) heq.symm

end hex
