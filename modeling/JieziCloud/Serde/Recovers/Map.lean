import JieziCloud.Json.Relaxed.Objects
import JieziCloud.Serde.HashMap
import JieziCloud.Serde.Recovers
import JieziCloud.Serde.Value

open json result

namespace serde

section values

/-- Sorting a new key in leaves the other members as they are, around it. -/
theorem insert_sorted_perm {A : Type} {key : String} {a : A} {members : List (String × A)}
    (h : key ∉ members.map Prod.fst) : (insert_sorted key a members).Perm ((key, a) :: members) := by
  induction members with
  | nil => exact .refl _
  | cons head members ih =>
    obtain ⟨name, b⟩ := head
    rw [List.map_cons, List.mem_cons, not_or] at h
    rw [insert_sorted]
    split_ifs with hlt heq
    · exact .refl _
    · exact absurd heq h.1
    · exact ((ih h.2).cons _).trans (.swap _ _ _)

/-- The members of an object that uses no key twice are all kept, each in
    canonical form. Only their order changes. -/
theorem canonicalize_members_perm {map members : List (String × Json)}
    (h : ((map ++ members).map Prod.fst).Nodup) : (canonicalize_members map members).Perm
      (map ++ members.map fun member => (member.1, canonicalize member.2)) := by
  induction members generalizing map with
  | nil => rw [canonicalize_members, List.map_nil, List.append_nil]
  | cons member members ih =>
    obtain ⟨key, value⟩ := member
    have hnotMem : key ∉ map.map Prod.fst := by
      rw [List.map_append, List.map_cons, List.nodup_append] at h
      exact fun hmem => h.2.2 key hmem key List.mem_cons_self rfl
    have hsorted := insert_sorted_perm (a := canonicalize value) hnotMem
    have hkeys : ((insert_sorted key (canonicalize value) map ++ members).map Prod.fst).Perm
        ((map ++ (key, value) :: members).map Prod.fst) := by
      apply ((hsorted.append_right members).map Prod.fst).trans
      rw [List.cons_append, List.map_cons, List.map_append, List.map_append, List.map_cons]
      exact List.perm_middle.symm
    rw [canonicalize_members, List.map_cons]
    exact ((ih (hkeys.nodup_iff.mpr h)).trans (hsorted.append_right _)).trans List.perm_middle.symm

/-- Scalars are in canonical form. -/
theorem canonicalize_of_isScalar {j : Json} (h : j.IsScalar) : canonicalize j = j :=
  canonicalize_of_canonical (.scalar h)

/-- Canonical forms of relaxed items are relaxed items: sorting the members of an
    object is one of the things that relaxing allows. -/
theorem relaxedItems_canonicalize {items relaxed : List Json} (h : RelaxedItems items relaxed)
    (hitems : ∀ item ∈ items, ∀ {k}, Relaxed item k → Relaxed item (canonicalize k)) :
    RelaxedItems items (relaxed.map canonicalize) := by
  induction items generalizing relaxed with
  | nil =>
    cases h
    exact .nil
  | cons item items ih =>
    cases h with
    | cons hitem hrest =>
      rw [List.forall_mem_cons] at hitems
      exact .cons (hitems.1 hitem) (ih hrest hitems.2)

/-- The same for the values of members, whose keys stay as they are. -/
theorem relaxedMembers_canonicalize {members relaxed : List (String × Json)}
    (h : RelaxedMembers members relaxed)
    (hmembers : ∀ member ∈ members, ∀ {k}, Relaxed member.2 k → Relaxed member.2 (canonicalize k)) :
    RelaxedMembers members (relaxed.map fun member => (member.1, canonicalize member.2)) := by
  induction members generalizing relaxed with
  | nil =>
    cases h
    exact .nil
  | cons member members ih =>
    cases h with
    | cons hvalue hrest =>
      rw [List.forall_mem_cons] at hmembers
      exact .cons (hmembers.1 hvalue) (ih hrest hmembers.2)

/-- Reading a relaxed form of a value into a value relaxes it no further than
    that: the members are put in order, and none is lost. -/
theorem relaxed_canonicalize {j k : Json} (hcanonical : Canonical j) (h : Relaxed j k) :
    Relaxed j (canonicalize k) := by
  induction j generalizing k with
  | arr items ih =>
    cases h with
    | scalar hscalar => exact hscalar.elim
    | arr hitems =>
      cases hcanonical with
      | scalar hscalar => exact hscalar.elim
      | arr hcanonical =>
        rw [canonicalize, canonicalize_items_eq_map]
        refine .arr (relaxedItems_canonicalize hitems ?_)
        intro item hmem k
        exact ih item hmem (hcanonical item hmem)
  | obj members ih =>
    have hrelaxed := h
    cases h with
    | scalar hscalar => exact hscalar.elim
    | @obj _ relaxed extra actual hmembers hdistinct hfresh hscalar hperm =>
      cases hcanonical with
      | scalar hscalar => exact hscalar.elim
      | obj hsorted hcanonical =>
        have hkeys : (actual.map Prod.fst).Nodup := hrelaxed.nodup_keys (hsorted.imp ne_of_lt)
        have hextra : (extra.map fun member => (member.1, canonicalize member.2)) = extra := by
          refine (List.map_congr_left ?_).trans (List.map_id extra)
          intro member hmember
          rw [canonicalize_of_isScalar (hscalar member hmember), id]
        have hkept := relaxedMembers_canonicalize hmembers fun member hmem {k} =>
          ih member hmem (hcanonical member hmem)
        have hsortedPerm : (canonicalize_members [] actual).Perm
            (actual.map fun member => (member.1, canonicalize member.2)) :=
          canonicalize_members_perm hkeys
        rw [canonicalize]
        refine .obj hkept hdistinct hfresh hscalar (hsortedPerm.trans ?_)
        conv => rhs; rw [← hextra, ← List.map_append]
        exact hperm.map _
  | null | bool | num | str =>
    rw [h.eq_of_isScalar trivial, canonicalize]
    exact .refl _

/-- A value is recovered as the values whose documents are relaxed forms of its
    own: what is added to it somewhere inside stays in. -/
theorem Value.recovers :
    Recovers (serialize (A := Value)) deserialize fun a b => Relaxed a.document b.document where
  serializes a := ⟨_, rfl⟩
  read_iff {a b data} hdata := by
    cases hdata
    rw [Data.to_json_of_json]
    constructor
    · rintro ⟨j, hrelaxed, hread⟩
      cases hread
      exact relaxed_canonicalize a.canonical hrelaxed
    · intro hrelaxed
      refine ⟨b.document, hrelaxed, ?_⟩
      simp only [deserialize, canonicalize_of_canonical b.canonical]

end values

namespace HashMap

variable {A : Type}

theorem ext_entries {self other : HashMap A} (h : self.entries = other.entries) : self = other := by
  cases self
  cases other
  cases h
  rfl

/-- An entry as it was decoded from a member. -/
def DecodedFrom [Deserialize A] (member : String × Json) (entry : String × A) : Prop :=
  entry.1 = member.1 ∧ deserialize member.2 = .ok entry.2

/-- When no key is used twice, every entry goes to the end of the map, and the
    fold succeeds exactly when each value is decoded. The induction is on the
    members, with the map that the earlier ones have left. -/
theorem foldlM_visit_entry_iff [Deserialize A] {members : List (String × Json)}
    {self result : HashMap A} (h : (self.entries.map Prod.fst ++ members.map Prod.fst).Nodup) :
    members.foldlM visit_entry self = .ok result ↔ ∃ added,
      result.entries = self.entries ++ added ∧ List.Forall₂ DecodedFrom members added := by
  induction members generalizing self with
  | nil =>
    constructor
    · intro hfold
      cases hfold
      exact ⟨[], (List.append_nil _).symm, .nil⟩
    · rintro ⟨_, hentries, ⟨⟩⟩
      rw [List.append_nil] at hentries
      exact congrArg Except.ok (ext_entries hentries.symm)
  | cons member members ih =>
    obtain ⟨key, j⟩ := member
    have hnotMem : key ∉ self.entries.map Prod.fst := by
      rw [List.map_cons, List.nodup_append] at h
      exact fun hmem => h.2.2 key hmem key List.mem_cons_self rfl
    have hinsert : ∀ a, (self.insert key a).entries = self.entries ++ [(key, a)] :=
      fun a => insert_entry_of_notMem hnotMem
    have hrest : ∀ a, ((self.insert key a).entries.map Prod.fst ++ members.map Prod.fst).Nodup := by
      intro a
      rw [hinsert, List.map_append, List.append_assoc]
      exact h
    rw [List.foldlM_cons, bind_eq_ok_iff]
    constructor
    · rintro ⟨mid, hmid, hfold⟩
      obtain ⟨a, ha, heq⟩ := bind_eq_ok_iff.mp hmid
      cases heq
      obtain ⟨added, hentries, hadded⟩ := (ih (hrest a)).mp hfold
      rw [hinsert, List.append_assoc] at hentries
      exact ⟨(key, a) :: added, hentries, .cons ⟨rfl, ha⟩ hadded⟩
    · rintro ⟨_, hentries, hadded⟩
      cases hadded with
      | @cons _ entry _ added hhead hadded =>
        obtain ⟨name, a⟩ := entry
        obtain ⟨rfl, ha⟩ := hhead
        refine ⟨self.insert name a, bind_eq_ok_iff.mpr ⟨a, ha, rfl⟩, (ih (hrest a)).mpr ?_⟩
        refine ⟨added, ?_, hadded⟩
        rw [hinsert, List.append_assoc]
        exact hentries

/-- An object that uses no key twice is read as the map of its members, in their
    order and each decoded on its own. -/
theorem deserialize_obj_iff [Deserialize A] {members : List (String × Json)} {self : HashMap A}
    (h : (members.map Prod.fst).Nodup) :
    deserialize (.obj members) = .ok self ↔ List.Forall₂ DecodedFrom members self.entries := by
  have hnew : ((new : HashMap A).entries.map Prod.fst ++ members.map Prod.fst).Nodup := h
  exact (foldlM_visit_entry_iff hnew).trans (by simp [new])

/-- Every entry was decoded from a member of its key. -/
theorem exists_of_mem_entries [Deserialize A] {members : List (String × Json)}
    {entries : List (String × A)} (h : List.Forall₂ DecodedFrom members entries) {entry : String × A}
    (hmem : entry ∈ entries) : ∃ j, (entry.1, j) ∈ members ∧ deserialize j = .ok entry.2 := by
  induction h with
  | nil => cases hmem
  | @cons member _ _ _ hhead _ ih =>
    obtain rfl | hmem := List.mem_cons.mp hmem
    · exact ⟨member.2, hhead.1 ▸ List.mem_cons_self, hhead.2⟩
    · obtain ⟨j, hj, hread⟩ := ih hmem
      exact ⟨j, List.mem_cons_of_mem _ hj, hread⟩

/-- Every member was decoded to an entry of its key. -/
theorem exists_of_mem_members [Deserialize A] {members : List (String × Json)}
    {entries : List (String × A)} (h : List.Forall₂ DecodedFrom members entries)
    {member : String × Json} (hmem : member ∈ members) :
    ∃ a, (member.1, a) ∈ entries ∧ deserialize member.2 = .ok a := by
  induction h with
  | nil => cases hmem
  | @cons _ entry _ _ hhead _ ih =>
    obtain rfl | hmem := List.mem_cons.mp hmem
    · exact ⟨entry.2, hhead.1 ▸ List.mem_cons_self, hhead.2⟩
    · obtain ⟨a, ha, hread⟩ := ih hmem
      exact ⟨a, List.mem_cons_of_mem _ ha, hread⟩

/-- Members with some property that the entries can be decoded from, given one for
    each entry. The keys stay as they are. -/
theorem exists_decodedFrom [Deserialize A] {P : String → Json → Prop} {entries : List (String × A)}
    (h : ∀ entry ∈ entries, ∃ j, deserialize j = .ok entry.2 ∧ P entry.1 j) :
    ∃ members, List.Forall₂ DecodedFrom members entries ∧
      members.map Prod.fst = entries.map Prod.fst ∧ ∀ member ∈ members, P member.1 member.2 := by
  induction entries with
  | nil => exact ⟨[], .nil, rfl, by simp⟩
  | cons entry entries ih =>
    rw [List.forall_mem_cons] at h
    obtain ⟨⟨j, hread, hj⟩, hrest⟩ := h
    obtain ⟨members, hmembers, hkeys, hall⟩ := ih hrest
    refine ⟨(entry.1, j) :: members, .cons ⟨rfl, hread⟩ hmembers, ?_, ?_⟩
    · rw [List.map_cons, List.map_cons, hkeys]
    · rw [List.forall_mem_cons]
      exact ⟨hj, hall⟩

/-- The document of a map has the keys of its entries, in their order, and under
    each key the document of a value that the map holds under it. -/
theorem document_spec [Serialize A] {entries : List (String × A)} {data : List (String × Data)}
    (h : entries.mapM serialize_entry = .ok data) :
    (document data).map Prod.fst = entries.map Prod.fst ∧
      ∀ member ∈ document data, ∃ entry ∈ entries, member.1 = entry.1 ∧
        ∃ value, serialize entry.2 = .ok value ∧ member.2 = value.to_json := by
  induction entries generalizing data with
  | nil =>
    cases h
    exact ⟨rfl, by simp⟩
  | cons entry entries ih =>
    rw [List.mapM_cons] at h
    obtain ⟨head, hhead, h⟩ := bind_eq_ok_iff.mp h
    obtain ⟨value, hvalue, rfl⟩ := map_eq_ok_iff.mp hhead
    obtain ⟨tail, htail, h⟩ := bind_eq_ok_iff.mp h
    cases h
    obtain ⟨hkeys, hmembers⟩ := ih htail
    rw [document_cons, List.map_cons, List.map_cons, hkeys]
    refine ⟨rfl, ?_⟩
    rw [List.forall_mem_cons]
    refine ⟨⟨entry, List.mem_cons_self, rfl, value, hvalue, rfl⟩, ?_⟩
    intro member hmember
    obtain ⟨found, hfound, hsame⟩ := hmembers member hmember
    exact ⟨found, List.mem_cons_of_mem _ hfound, hsame⟩

/-- The map keeps its keys, with related values, and takes on further ones with
    scalars only. -/
structure Gains [Deserialize A] (same : A → A → Prop) (before after : HashMap A) : Prop where
  kept : ∀ key a, before.get key = some a → ∃ b, after.get key = some b ∧ same a b
  added : ∀ key b, after.get key = some b → before.get key = none →
    ∃ j : Json, j.IsScalar ∧ deserialize j = .ok b

theorem mem_keys_of_get {self : HashMap A} {key : String} {a : A} (h : self.get key = some a) :
    key ∈ self.entries.map Prod.fst :=
  List.mem_map_of_mem (get_eq_some_iff.mp h)

/-- A key that cannot be found is not among the keys. -/
theorem get_eq_none_iff {self : HashMap A} {key : String} :
    self.get key = none ↔ key ∉ self.entries.map Prod.fst := by
  constructor
  · intro hnone hmem
    obtain ⟨⟨name, a⟩, hentry, rfl⟩ := List.mem_map.mp hmem
    rw [get_eq_some_iff.mpr hentry] at hnone
    cases hnone
  · intro hnotMem
    cases hget : self.get key with
    | none => rfl
    | some a => exact absurd (mem_keys_of_get hget) hnotMem

section recovers

variable [Serialize A] [Deserialize A] {same : A → A → Prop}

/-- What is read from a relaxed form of a map has gained nothing but scalars:
    entries come from members, and the members are those of the map in relaxed
    form, or have been added. -/
theorem gains_of_read (h : Recovers (serialize (A := A)) deserialize same) {self other : HashMap A}
    {data : Data} (hdata : serialize self = .ok data) {j : Json} (hrelaxed : Relaxed data.to_json j)
    (hread : deserialize j = .ok other) : self.Gains same other := by
  obtain ⟨members, hmembers, rfl⟩ := map_eq_ok_iff.mp hdata
  obtain ⟨hkeys, hdocument⟩ := document_spec hmembers
  rw [Data.to_json_map] at hrelaxed
  have hnodup : ((document members).map Prod.fst).Nodup := hkeys ▸ self.nodup_keys
  have hobj := hrelaxed
  cases hrelaxed with
  | scalar hscalar => exact hscalar.elim
  | @obj _ relaxed extra actual hkept _ _ hscalar hperm =>
    have hentries := (deserialize_obj_iff (hobj.nodup_keys hnodup)).mp hread
    constructor
    · intro key a hget
      have hmem := mem_keys_of_get hget
      rw [← hkeys] at hmem
      obtain ⟨member, hmember, rfl⟩ := List.mem_map.mp hmem
      obtain ⟨entry, hentry, hkey, value, hvalue, heq⟩ := hdocument member hmember
      rw [hkey, get_eq_some_iff.mpr hentry, Option.some.injEq] at hget
      subst hget
      obtain ⟨k, hk, hrelaxed⟩ := hkept.exists_of_mem hmember
      have hactual : (member.1, k) ∈ actual := hperm.mem_iff.mpr (List.mem_append_left _ hk)
      obtain ⟨b, hb, hdecode⟩ := exists_of_mem_members hentries hactual
      rw [heq] at hrelaxed
      exact ⟨b, get_eq_some_iff.mpr hb, (h.read_iff hvalue).mp ⟨k, hrelaxed, hdecode⟩⟩
    · intro key b hget hnone
      obtain ⟨k, hk, hdecode⟩ := exists_of_mem_entries hentries (get_eq_some_iff.mp hget)
      rw [hperm.mem_iff, List.mem_append] at hk
      obtain hk | hk := hk
      · have hmem : key ∈ relaxed.map Prod.fst := List.mem_map_of_mem hk
        rw [hkept.keys, hkeys] at hmem
        exact absurd hmem (get_eq_none_iff.mp hnone)
      · exact ⟨k, hscalar _ hk, hdecode⟩

/-- What a member has to be for a map to be relaxed to an object with it. -/
def Allows (before : HashMap A) (key : String) (j : Json) : Prop :=
  (∀ a value, before.get key = some a → serialize a = .ok value → Relaxed value.to_json j) ∧
    (before.get key = none → j.IsScalar)

theorem Gains.exists_allowed (h : Recovers (serialize (A := A)) deserialize same)
    {self other : HashMap A} (hgains : self.Gains same other) {entry : String × A}
    (hentry : entry ∈ other.entries) : ∃ j, deserialize j = .ok entry.2 ∧ self.Allows entry.1 j := by
  have hget := get_eq_some_iff.mpr hentry
  cases hself : self.get entry.1 with
  | none =>
    obtain ⟨j, hscalar, hread⟩ := hgains.added _ _ hget hself
    refine ⟨j, hread, ?_, fun _ => hscalar⟩
    intro a value hsome
    rw [hself] at hsome
    cases hsome
  | some a =>
    obtain ⟨b, hb, hsame⟩ := hgains.kept _ _ hself
    rw [hget, Option.some.injEq] at hb
    subst hb
    obtain ⟨data, hdata⟩ := h.serializes a
    obtain ⟨j, hrelaxed, hread⟩ := (h.read_iff hdata).mpr hsame
    refine ⟨j, hread, ?_, ?_⟩
    · intro a' value hsome hvalue
      rw [hself, Option.some.injEq] at hsome
      subst hsome
      rw [hdata, Except.ok.injEq] at hvalue
      subst hvalue
      exact hrelaxed
    · intro hnone
      rw [hself] at hnone
      cases hnone

/-- Whatever a map can gain, some relaxed form of it reads as having gained it:
    the members for what was kept and for what has been added are put together. -/
theorem read_of_gains (h : Recovers (serialize (A := A)) deserialize same) {self other : HashMap A}
    {data : Data} (hdata : serialize self = .ok data) (hgains : self.Gains same other) :
    ∃ j, Relaxed data.to_json j ∧ deserialize j = .ok other := by
  obtain ⟨members, hmembers, rfl⟩ := map_eq_ok_iff.mp hdata
  obtain ⟨hkeys, hdocument⟩ := document_spec hmembers
  obtain ⟨actual, hentries, hactualKeys, hallowed⟩ :=
    exists_decodedFrom fun _ => hgains.exists_allowed h
  have hactual : (actual.map Prod.fst).Nodup := hactualKeys ▸ other.nodup_keys
  rw [Data.to_json_map]
  refine ⟨.obj actual, Relaxed.of_mem (hkeys ▸ self.nodup_keys) hactual ?_ ?_,
    (deserialize_obj_iff hactual).mpr hentries⟩
  · intro member hmember
    obtain ⟨entry, hentry, hkey, value, hvalue, heq⟩ := hdocument member hmember
    have hget := get_eq_some_iff.mpr hentry
    obtain ⟨b, hb, _⟩ := hgains.kept _ _ hget
    obtain ⟨j, hj, _⟩ := exists_of_mem_entries hentries (get_eq_some_iff.mp hb)
    rw [hkey, heq]
    exact ⟨j, hj, (hallowed _ hj).1 _ _ hget hvalue⟩
  · intro member hmember hfresh
    rw [hkeys] at hfresh
    exact (hallowed member hmember).2 (get_eq_none_iff.mpr hfresh)

/-- A map is recovered key by key, and takes on what is added to its object. -/
theorem recovers (h : Recovers (serialize (A := A)) deserialize same) :
    Recovers (serialize (A := HashMap A)) deserialize (Gains same) where
  serializes self := by
    have hentry : ∀ entry : String × A, ∃ data, serialize_entry entry = .ok data := by
      intro entry
      obtain ⟨data, hdata⟩ := h.serializes entry.2
      exact ⟨(entry.1, data), by rw [serialize_entry, hdata, map_ok]⟩
    obtain ⟨data, hdata⟩ := exists_mapM hentry self.entries
    exact ⟨.map data, map_eq_ok_iff.mpr ⟨data, hdata, rfl⟩⟩
  read_iff hdata :=
    ⟨fun ⟨_, hrelaxed, hread⟩ => gains_of_read h hdata hrelaxed hread, read_of_gains h hdata⟩

end recovers

end HashMap

end serde
