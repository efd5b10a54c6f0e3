import JieziCloud.Crates.Uuid
import JieziCloud.Lexicographic

open lexicographic

namespace hex

/-- The one byte of a lower-case digit. -/
def digit_byte (n : Nat) : UInt8 := UInt8.ofNat (if n < 10 then 48 + n else 87 + n)

/-- A lower-case digit is one byte of the text, which the comparison of texts
    looks at. -/
theorem utf8EncodeChar_digitChar {n : Nat} (h : n < 16) :
    String.utf8EncodeChar n.digitChar = [digit_byte n] := by
  have hall : ∀ n : Fin 16, String.utf8EncodeChar (Nat.digitChar n) = [digit_byte n] := by decide
  exact hall ⟨n, h⟩

theorem digit_byte_toNat {n : Nat} (h : n < 16) :
    (digit_byte n).toNat = if n < 10 then 48 + n else 87 + n := by
  rw [digit_byte, UInt8.toNat_ofNat']
  split <;> omega

/-- The digits above nine come later in the alphabet of bytes than the others. -/
theorem digit_byte_lt_iff {m n : Nat} (hm : m < 16) (hn : n < 16) :
    digit_byte m < digit_byte n ↔ m < n := by
  rw [UInt8.lt_iff_toNat_lt, digit_byte_toNat hm, digit_byte_toNat hn]
  split <;> split <;> omega

theorem digit_byte_inj {m n : Nat} (hm : m < 16) (hn : n < 16) :
    digit_byte m = digit_byte n ↔ m = n := by
  rw [← UInt8.toNat_inj, digit_byte_toNat hm, digit_byte_toNat hn]
  split <;> split <;> omega

/-- The text of a byte, as bytes. -/
def byte_text (b : UInt8) : List UInt8 := (byte_chars b).flatMap String.utf8EncodeChar

theorem halves_lt (b : UInt8) : b.toNat / 16 < 16 ∧ b.toNat % 16 < 16 := by
  have hb := b.toNat_lt
  omega

/-- The text of a byte is the byte of its higher digit before the byte of its
    lower one. -/
theorem byte_text_eq (b : UInt8) :
    byte_text b = [digit_byte (b.toNat / 16), digit_byte (b.toNat % 16)] := by
  obtain ⟨hhigh, hlow⟩ := halves_lt b
  rw [byte_text, byte_chars, List.flatMap_cons, List.flatMap_singleton,
    utf8EncodeChar_digitChar hhigh, utf8EncodeChar_digitChar hlow, List.singleton_append]

/-- Two hexadecimal digits compare like the byte they stand for, and take two
    bytes of text for every one: the texts of byte lists keep their order. -/
theorem byte_text_code : OrderCode byte_text 2 where
  positive := by decide
  length b := by
    rw [byte_text_eq]
    rfl
  lt_iff a b := by
    obtain ⟨ha, ha'⟩ := halves_lt a
    obtain ⟨hb, hb'⟩ := halves_lt b
    rw [byte_text_eq, byte_text_eq, List.cons_lt_cons_iff, List.cons_lt_cons_iff,
      digit_byte_lt_iff ha hb, digit_byte_inj ha hb, digit_byte_lt_iff ha' hb', UInt8.lt_iff_toNat_lt]
    simp only [List.lt_irrefl, and_false, or_false]
    omega
  injective a b h := by
    obtain ⟨ha, ha'⟩ := halves_lt a
    obtain ⟨hb, hb'⟩ := halves_lt b
    rw [byte_text_eq, byte_text_eq, List.cons.injEq, List.cons.injEq,
      digit_byte_inj ha hb, digit_byte_inj ha' hb'] at h
    rw [← UInt8.toNat_inj]
    omega

end hex

namespace uuid

/-- UUIDs are compared byte by byte. -/
instance : LT Uuid := ⟨fun left right => left.bytes < right.bytes⟩

instance (left right : Uuid) : Decidable (left < right) :=
  inferInstanceAs (Decidable (left.bytes < right.bytes))

/-- The printed form as bytes: five groups of two digits a byte, at the same
    places in every UUID, with a hyphen between them. -/
theorem Uuid.as_bytes_to_string (self : Uuid) : as_bytes self.to_string =
    (self.bytes.take 4).flatMap hex.byte_text ++ 45 ::
      (((self.bytes.drop 4).take 2).flatMap hex.byte_text ++ 45 ::
        (((self.bytes.drop 6).take 2).flatMap hex.byte_text ++ 45 ::
          (((self.bytes.drop 8).take 2).flatMap hex.byte_text ++ 45 ::
            (self.bytes.drop 10).flatMap hex.byte_text))) := by
  have hhyphen : String.utf8EncodeChar '-' = [45] := by decide
  have hgroup : ∀ bytes : List UInt8, (bytes.flatMap hex.byte_chars).flatMap String.utf8EncodeChar =
      bytes.flatMap hex.byte_text := by
    intro bytes
    rw [List.flatMap_assoc]
    rfl
  rw [to_string, as_bytes_ofList]
  simp only [hyphenated, List.flatMap_append, List.flatMap_cons, hhyphen, hgroup,
    List.singleton_append]

/-- The hyphens stand at the same places in every text, so that only the digits
    decide, and the digits compare like the bytes. -/
theorem Uuid.str_lt_to_string_iff (left right : Uuid) :
    str_lt left.to_string right.to_string ↔ left < right := by
  have hleft := left.length_bytes
  have hright := right.length_bytes
  have hlast := hex.byte_text_code.flatMap_lt_iff (left.bytes.drop 10) (right.bytes.drop 10)
  have hdrop : ∀ (start count : Nat) (self : Uuid), ((self.bytes.drop start).take count) ++
      self.bytes.drop (start + count) = self.bytes.drop start := by
    intro start count self
    rw [← List.drop_drop, List.take_append_drop]
  have hlength : ∀ start count, ((left.bytes.drop start).take count).length =
      ((right.bytes.drop start).take count).length := by
    intro start count
    simp only [List.length_take, List.length_drop, hleft, hright]
  have hfourth := hex.byte_text_code.group_lt_iff (hlength 8 2) hlast 45
  rw [hdrop 8 2, hdrop 8 2] at hfourth
  have hthird := hex.byte_text_code.group_lt_iff (hlength 6 2) hfourth 45
  rw [hdrop 6 2, hdrop 6 2] at hthird
  have hsecond := hex.byte_text_code.group_lt_iff (hlength 4 2) hthird 45
  rw [hdrop 4 2, hdrop 4 2] at hsecond
  have hfirst := hex.byte_text_code.group_lt_iff (hlength 0 4) hsecond 45
  rw [hdrop 0 4, hdrop 0 4, List.drop_zero, List.drop_zero] at hfirst
  rw [str_lt, left.as_bytes_to_string, right.as_bytes_to_string]
  exact hfirst

end uuid
