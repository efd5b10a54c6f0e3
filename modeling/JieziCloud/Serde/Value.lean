import JieziCloud.Serde.Nesting
import Mathlib.Data.String.Basic

open json result

namespace serde

/-- The members of a map that is ordered by its keys: a key that is present
    already takes the new value. -/
def insert_sorted {A : Type} (key : String) (a : A) : List (String × A) → List (String × A)
  | [] => [(key, a)]
  | (name, b) :: members =>
    if key < name then (key, a) :: (name, b) :: members
    else if key = name then (key, a) :: members
    else (name, b) :: insert_sorted key a members

mutual

/-- What is left of a document that is read as a value of its own: the members
    of each object in the order of their keys, the last one of each key. -/
def canonicalize : Json → Json
  | .null => .null
  | .bool value => .bool value
  | .num value => .num value
  | .str value => .str value
  | .arr items => .arr (canonicalize_items items)
  | .obj members => .obj (canonicalize_members [] members)

def canonicalize_items : List Json → List Json
  | [] => []
  | item :: items => canonicalize item :: canonicalize_items items

def canonicalize_members (map : List (String × Json)) :
    List (String × Json) → List (String × Json)
  | [] => map
  | (key, value) :: members =>
    canonicalize_members (insert_sorted key (canonicalize value) map) members

end

/-- Every object of the document has its keys in strictly increasing order. -/
inductive Canonical : Json → Prop
  | scalar {j : Json} : j.IsScalar → Canonical j
  | arr {items : List Json} : (∀ item ∈ items, Canonical item) → Canonical (.arr items)
  | obj {members : List (String × Json)} : (members.map Prod.fst).Pairwise (· < ·) →
      (∀ member ∈ members, Canonical member.2) → Canonical (.obj members)

theorem mem_insert_sorted {A : Type} {key : String} {a : A} {members : List (String × A)}
    {member : String × A} (h : member ∈ insert_sorted key a members) :
    member = (key, a) ∨ member ∈ members := by
  induction members with
  | nil => exact .inl (List.mem_singleton.mp h)
  | cons head members ih =>
    rw [insert_sorted] at h
    split_ifs at h
    · exact List.mem_cons.mp h
    · exact (List.mem_cons.mp h).imp_right (List.mem_cons_of_mem _)
    · obtain rfl | h := List.mem_cons.mp h
      · exact .inr List.mem_cons_self
      · exact (ih h).imp_right (List.mem_cons_of_mem _)

/-- Sorting a member in keeps the keys in strictly increasing order. A key that is
    there already is given the new value. -/
theorem insert_sorted_pairwise {A : Type} (key : String) (a : A) {members : List (String × A)}
    (h : (members.map Prod.fst).Pairwise (· < ·)) :
    ((insert_sorted key a members).map Prod.fst).Pairwise (· < ·) := by
  induction members with
  | nil => exact List.pairwise_singleton _ _
  | cons head members ih =>
    obtain ⟨name, b⟩ := head
    rw [List.map_cons, List.pairwise_cons] at h
    rw [insert_sorted]
    split_ifs with hlt heq
    · rw [List.map_cons, List.map_cons, List.pairwise_cons, List.pairwise_cons]
      have hfirst : ∀ other ∈ name :: members.map Prod.fst, key < other := by
        intro other hother
        obtain rfl | hother := List.mem_cons.mp hother
        · exact hlt
        · exact hlt.trans (h.1 other hother)
      exact ⟨hfirst, h⟩
    · subst heq
      rw [List.map_cons, List.pairwise_cons]
      exact h
    · rw [List.map_cons, List.pairwise_cons]
      refine ⟨?_, ih h.2⟩
      intro other hother
      obtain ⟨member, hmember, rfl⟩ := List.mem_map.mp hother
      obtain rfl | hmember := mem_insert_sorted hmember
      · exact lt_of_le_of_ne (not_lt.mp hlt) fun hname => heq hname.symm
      · exact h.1 _ (List.mem_map_of_mem hmember)

/-- A key above all others goes to the end. -/
theorem insert_sorted_of_forall_lt {A : Type} {key : String} {a : A} {members : List (String × A)}
    (h : ∀ name ∈ members.map Prod.fst, name < key) :
    insert_sorted key a members = members ++ [(key, a)] := by
  induction members with
  | nil => rfl
  | cons head members ih =>
    obtain ⟨name, b⟩ := head
    rw [List.map_cons, List.forall_mem_cons] at h
    rw [insert_sorted, if_neg h.1.asymm, if_neg h.1.ne', ih h.2, List.cons_append]

theorem canonicalize_items_eq_map (items : List Json) :
    canonicalize_items items = items.map canonicalize := by
  induction items with
  | nil => rfl
  | cons item items ih => rw [canonicalize_items, ih, List.map_cons]

/-- Sorting in loses no member and makes up none, apart from bringing the values
    into canonical form. -/
theorem mem_canonicalize_members {map members : List (String × Json)} {member : String × Json}
    (h : member ∈ canonicalize_members map members) :
    member ∈ map ∨ ∃ value, (member.1, value) ∈ members ∧ member.2 = canonicalize value := by
  induction members generalizing map with
  | nil => exact .inl h
  | cons head members ih =>
    obtain ⟨key, value⟩ := head
    rw [canonicalize_members] at h
    obtain h | ⟨found, hfound, heq⟩ := ih h
    · obtain rfl | h := mem_insert_sorted h
      · exact .inr ⟨value, List.mem_cons_self, rfl⟩
      · exact .inl h
    · exact .inr ⟨found, List.mem_cons_of_mem _ hfound, heq⟩

/-- The members that have been sorted in are in the order of their keys, each of
    them once. -/
theorem canonicalize_members_pairwise {map : List (String × Json)} (members : List (String × Json))
    (h : (map.map Prod.fst).Pairwise (· < ·)) :
    ((canonicalize_members map members).map Prod.fst).Pairwise (· < ·) := by
  induction members generalizing map with
  | nil => exact h
  | cons head members ih => exact ih (insert_sorted_pairwise _ _ h)

/-- The result of sorting the members of all objects is sorted, at every level.
    The induction is on the document. -/
theorem canonical_canonicalize (j : Json) : Canonical (canonicalize j) := by
  induction j with
  | null | bool | num | str => exact .scalar trivial
  | arr items ih =>
    rw [canonicalize, canonicalize_items_eq_map]
    exact .arr (List.forall_mem_map.mpr ih)
  | obj members ih =>
    rw [canonicalize]
    apply Canonical.obj (canonicalize_members_pairwise members .nil)
    intro member hmember
    obtain hmember | ⟨value, hvalue, heq⟩ := mem_canonicalize_members hmember
    · cases hmember
    · rw [heq]
      exact ih _ hvalue

/-- Members that come in the order of their keys are taken over behind those that
    are there, if their values are in canonical form. -/
theorem canonicalize_members_of_sorted {map members : List (String × Json)}
    (hsorted : ((map ++ members).map Prod.fst).Pairwise (· < ·))
    (hfixed : ∀ member ∈ members, canonicalize member.2 = member.2) :
    canonicalize_members map members = map ++ members := by
  induction members generalizing map with
  | nil => rw [canonicalize_members, List.append_nil]
  | cons member members ih =>
    obtain ⟨key, value⟩ := member
    rw [List.forall_mem_cons] at hfixed
    have hlast : ∀ name ∈ map.map Prod.fst, name < key := by
      intro name hname
      rw [List.map_append, List.pairwise_append] at hsorted
      exact hsorted.2.2 name hname key List.mem_cons_self
    have hsplit : map ++ (key, value) :: members = (map ++ [(key, value)]) ++ members := by simp
    rw [canonicalize_members, hfixed.1, insert_sorted_of_forall_lt hlast, hsplit]
    exact ih (hsplit ▸ hsorted) hfixed.2

/-- A document in canonical form is left as it is, so that a value is read back
    from its own document unchanged. -/
theorem canonicalize_of_canonical {j : Json} (h : Canonical j) : canonicalize j = j := by
  induction j with
  | null | bool | num | str => rfl
  | arr items ih =>
    cases h with
    | scalar hscalar => exact hscalar.elim
    | arr hitems =>
      have hfixed : ∀ item ∈ items, canonicalize item = id item := by
        intro item hitem
        exact ih item hitem (hitems item hitem)
      rw [canonicalize, canonicalize_items_eq_map, List.map_congr_left hfixed, List.map_id]
  | obj members ih =>
    cases h with
    | scalar hscalar => exact hscalar.elim
    | obj hsorted hmembers =>
      have hfixed : ∀ member ∈ members, canonicalize member.2 = member.2 := by
        intro member hmember
        exact ih member hmember (hmembers member hmember)
      rw [canonicalize, canonicalize_members_of_sorted (by simpa using hsorted) hfixed,
        List.nil_append]

/-- Ordering the members and dropping the overwritten ones nests nothing. The
    induction is on the document. -/
theorem depth_canonicalize_le (j : Json) : (canonicalize j).depth ≤ j.depth := by
  induction j with
  | null | bool | num | str => exact le_rfl
  | arr items ih =>
    rw [canonicalize, canonicalize_items_eq_map, Json.depth_arr, Json.depth_arr,
      Nat.add_le_add_iff_right, Json.depthItems_le_iff]
    intro item hitem
    obtain ⟨source, hsource, rfl⟩ := List.mem_map.mp hitem
    exact (ih source hsource).trans (Json.depthItems_le_iff.mp le_rfl source hsource)
  | obj members ih =>
    rw [canonicalize, Json.depth_obj, Json.depth_obj, Nat.add_le_add_iff_right,
      Json.depthMembers_le_iff]
    intro member hmember
    obtain hmember | ⟨value, hvalue, heq⟩ := mem_canonicalize_members hmember
    · cases hmember
    · rw [heq]
      exact (ih _ hvalue).trans (Json.depthMembers_le_iff.mp le_rfl _ hvalue)

/-- `serde_json::Value`, with its objects as ordered maps. -/
structure Value where
  document : Json
  canonical : Canonical document

mutual

def Data.of_json : Json → Data
  | .null => .unit
  | .bool value => .bool value
  | .num value => .int value
  | .str value => .str value
  | .arr items => .seq (Data.of_items items)
  | .obj members => .map (Data.of_members members)

def Data.of_items : List Json → List Data
  | [] => []
  | item :: items => Data.of_json item :: Data.of_items items

def Data.of_members : List (String × Json) → List (String × Data)
  | [] => []
  | (key, value) :: members => (key, Data.of_json value) :: Data.of_members members

end

theorem Data.of_items_eq_map (items : List Json) :
    Data.of_items items = items.map Data.of_json := by
  induction items with
  | nil => rfl
  | cons item items ih => rw [of_items, ih, List.map_cons]

theorem document_of_members (members : List (String × Json)) :
    document (Data.of_members members) =
      members.map fun member => (member.1, (Data.of_json member.2).to_json) := by
  induction members with
  | nil => rfl
  | cons member members ih => rw [Data.of_members, document_cons, ih, List.map_cons]

/-- Any document can be serialized, and is written as it is. -/
theorem Data.to_json_of_json (j : Json) : (Data.of_json j).to_json = j := by
  induction j with
  | null | bool | num | str => rfl
  | arr items ih =>
    have hsame : ∀ item ∈ items, (to_json ∘ of_json) item = id item := by
      intro item hitem
      exact ih item hitem
    rw [of_json, to_json_seq, of_items_eq_map, List.map_map, List.map_congr_left hsame, List.map_id]
  | obj members ih =>
    have hsame : ∀ member ∈ members, (member.1, (of_json member.2).to_json) = id member := by
      intro member hmember
      rw [ih member hmember, id]
    rw [of_json, to_json_map, document_of_members, List.map_congr_left hsame, List.map_id]

instance : Serialize Value := ⟨fun self => .ok (Data.of_json self.document)⟩

instance : Deserialize Value where
  deserialize := fun j => .ok ⟨canonicalize j, canonical_canonicalize j⟩

instance : Survives Eq Value where
  survives self := by
    refine ⟨Data.of_json self.document, rfl, ?_⟩
    rintro _ rfl
    simp only [deserialize, Data.to_json_of_json, canonicalize_of_canonical self.canonical]

/-- A value nests as deeply as its document: nothing is put around it. -/
theorem Value.nestsAtMost_iff (self : Value) (bound : Nat) :
    NestsAtMost serialize bound self ↔ self.document.depth ≤ bound := by
  simp only [NestsAtMost, serialize, Except.ok.injEq, forall_eq', Data.to_json_of_json]

end serde
