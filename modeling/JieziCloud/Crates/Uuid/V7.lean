import JieziCloud.Crates.Uuid.Order

open lexicographic

namespace uuid

/-- The generator of version 7 UUIDs, of which the code relies on one fact: the
    millisecond timestamp stands in the first six bytes. All other bits depend
    on the 74 bits that the version leaves open. -/
class V7 where
  now_v7 : Nat → BitVec 74 → Uuid
  take_now_v7 : ∀ millis random, millis < 2 ^ 48 →
    (now_v7 millis random).bytes.take 6 = big_endian 6 millis

export V7 (now_v7)

/-- A UUID of a later millisecond is greater, whatever the random bits. -/
theorem now_v7_lt [V7] {earlier later : Nat} (hlt : earlier < later) (hfits : later < 2 ^ 48)
    (random other : BitVec 74) : now_v7 earlier random < now_v7 later other := by
  have hfirst := V7.take_now_v7 earlier random (Nat.lt_trans hlt hfits)
  have hsecond := V7.take_now_v7 later other hfits
  have hlength : ((now_v7 earlier random).bytes.take 6).length =
      ((now_v7 later other).bytes.take 6).length := by
    rw [hfirst, hsecond, length_big_endian, length_big_endian]
  have hbytes := append_lt_append_iff hlength ((now_v7 earlier random).bytes.drop 6)
    ((now_v7 later other).bytes.drop 6)
  rw [List.take_append_drop, List.take_append_drop, hfirst, hsecond] at hbytes
  exact hbytes.mpr (.inl (big_endian_lt hlt hfits))

/-- UUIDs of different milliseconds differ, even if the random bits are the same.
    -/
theorem now_v7_ne [V7] {earlier later : Nat} (hlt : earlier < later) (hfits : later < 2 ^ 48)
    (random other : BitVec 74) : now_v7 earlier random ≠ now_v7 later other := by
  intro heq
  have hless := now_v7_lt hlt hfits random other
  rw [heq] at hless
  exact List.lt_irrefl _ hless

/-- The fields of a version 7 UUID as one number: the timestamp, the version,
    twelve random bits, the variant, and the remaining random bits. -/
def v7_value (millis : Nat) (random : BitVec 74) : Nat :=
  ((millis * 2 ^ 4 + 7) * 2 ^ 12 + random.toNat / 2 ^ 62) * 2 ^ 64 +
    (2 * 2 ^ 62 + random.toNat % 2 ^ 62)

/-- The ten lower bytes hold the version, the variant and the random bits, and
    what lies above them is the timestamp. -/
theorem v7_value_div (millis : Nat) (random : BitVec 74) :
    v7_value millis random / 256 ^ 10 = millis := by
  have hrandom := random.isLt
  unfold v7_value
  omega

/-- A generator that lays out these fields and nothing else. -/
@[reducible] def layoutV7 : V7 where
  now_v7 millis random := ⟨big_endian 16 (v7_value millis random), length_big_endian 16 _⟩
  take_now_v7 millis random _ := by
    rw [take_big_endian 6 10, v7_value_div]

end uuid
