import JieziCloud.Types.Ids

open lexicographic uuid

namespace jiezi_cloud_core.types.newtype_uuid_id

variable {name : String}

/-- The texts of two identifiers of one type compare like the identifiers: the
    name of the type is not part of them. -/
theorem str_lt_to_string_iff (a b : newtype_uuid_id name) :
    str_lt a.to_string b.to_string ↔ a < b :=
  Uuid.str_lt_to_string_iff a.inner b.inner

/-- The text of an identifier is parsed as the identifier. -/
theorem from_str_to_string [Parser] (a : newtype_uuid_id name) : from_str a.to_string = some a := by
  rw [from_str, to_string, Parser.parse_str_to_string]
  rfl

/-- Identifiers that are made in a later millisecond are greater. -/
theorem new_lt [V7] {earlier later : Nat} (hlt : earlier < later) (hfits : later < 2 ^ 48)
    (random other : BitVec 74) :
    (new earlier random : newtype_uuid_id name) < new later other :=
  now_v7_lt hlt hfits random other

/-- What makes the identifiers of a type sortable by their texts alone: texts
    compare like identifiers, are read back as them, and come later when they
    are minted in a later millisecond. -/
structure SortsByText (name : String) [Parser] [V7] : Prop where
  lt_iff : ∀ a b : newtype_uuid_id name, a < b ↔ str_lt a.to_string b.to_string
  reads_back : ∀ a : newtype_uuid_id name, from_str a.to_string = some a
  minted : ∀ (earlier later : Nat) (random other : BitVec 74), earlier < later → later < 2 ^ 48 →
    (new earlier random : newtype_uuid_id name) < new later other ∧
      str_lt (new earlier random : newtype_uuid_id name).to_string
        (new later other : newtype_uuid_id name).to_string

/-- The identifiers of every type sort by their texts, whichever parser reads them
    and whichever generator makes them, as long as both do what the identifiers
    rely on. -/
theorem sortsByText (name : String) [Parser] [V7] : SortsByText name := by
  refine ⟨?_, ?_, ?_⟩
  · intro a b
    exact (str_lt_to_string_iff a b).symm
  · intro a
    exact from_str_to_string a
  · intro earlier later random other hlt hfits
    have hminted : (new earlier random : newtype_uuid_id name) < new later other :=
      new_lt hlt hfits random other
    exact ⟨hminted, (str_lt_to_string_iff _ _).mpr hminted⟩

theorem user_ids_sortByText : @SortsByText "UserId" hyphenatedParser layoutV7 :=
  @sortsByText "UserId" hyphenatedParser layoutV7

end jiezi_cloud_core.types.newtype_uuid_id
