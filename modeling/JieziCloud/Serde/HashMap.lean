import JieziCloud.Serde.Nesting
import Mathlib.Data.List.Nodup

open json result

namespace serde

/-- A hash map from strings as its entries in the order of iteration, each key
    once. The code never depends on that order: maps are compared by lookup. -/
structure HashMap (A : Type) where
  entries : List (String × A)
  nodup_keys : (entries.map Prod.fst).Nodup

namespace HashMap

variable {A : Type}

def new : HashMap A := ⟨[], List.nodup_nil⟩

def get (self : HashMap A) (key : String) : Option A := self.entries.lookup key

/-- `==` on maps -/
def Same (self other : HashMap A) : Prop := ∀ key, self.get key = other.get key

def insert_entry (key : String) (a : A) : List (String × A) → List (String × A)
  | [] => [(key, a)]
  | entry :: entries =>
    if entry.1 = key then (key, a) :: entries else entry :: insert_entry key a entries

/-- Inserting under a key that is there keeps the keys as they are; under another
    one it adds the key behind them. -/
theorem keys_insert_entry (key : String) (a : A) (entries : List (String × A)) :
    (insert_entry key a entries).map Prod.fst =
      if key ∈ entries.map Prod.fst then entries.map Prod.fst
      else entries.map Prod.fst ++ [key] := by
  induction entries with
  | nil => rfl
  | cons entry entries ih =>
    rw [insert_entry]
    by_cases hkey : entry.1 = key
    · simp [hkey]
    · have hne : ¬key = entry.1 := fun h => hkey h.symm
      rw [if_neg hkey, List.map_cons, ih, List.map_cons]
      simp only [List.mem_cons, hne, false_or]
      split <;> simp

/-- The last value inserted under a key is the one that stays. -/
def insert (self : HashMap A) (key : String) (a : A) : HashMap A where
  entries := insert_entry key a self.entries
  nodup_keys := by
    rw [keys_insert_entry]
    split
    · exact self.nodup_keys
    · next hkey =>
      rw [List.nodup_append]
      refine ⟨self.nodup_keys, List.nodup_singleton key, ?_⟩
      rintro found hfound _ hsingle rfl
      exact hkey (List.mem_singleton.mp hsingle ▸ hfound)

/-- A new key comes last. -/
theorem insert_entry_of_notMem {key : String} {a : A} {entries : List (String × A)}
    (h : key ∉ entries.map Prod.fst) : insert_entry key a entries = entries ++ [(key, a)] := by
  induction entries with
  | nil => rfl
  | cons entry entries ih =>
    rw [List.map_cons, List.mem_cons, not_or] at h
    rw [insert_entry, if_neg fun heq => h.1 heq.symm, ih h.2, List.cons_append]

theorem mem_insert_entry {key : String} {a : A} {entries : List (String × A)}
    {entry : String × A} (h : entry ∈ insert_entry key a entries) :
    entry = (key, a) ∨ entry ∈ entries := by
  induction entries with
  | nil => exact .inl (List.mem_singleton.mp h)
  | cons head entries ih =>
    rw [insert_entry] at h
    split at h
    · rw [List.mem_cons] at h
      exact h.imp_right (List.mem_cons_of_mem _)
    · rw [List.mem_cons] at h
      obtain rfl | h := h
      · exact .inr List.mem_cons_self
      · exact (ih h).imp_right (List.mem_cons_of_mem _)

/-- Looking a key up finds its entry, of which there is only one. So two maps are
    the same for the code when they have the same entries in any order. -/
theorem get_eq_some_iff {self : HashMap A} {key : String} {a : A} :
    self.get key = some a ↔ (key, a) ∈ self.entries := by
  obtain ⟨entries, hnodup⟩ := self
  change entries.lookup key = some a ↔ (key, a) ∈ entries
  induction entries with
  | nil => simp
  | cons entry entries ih =>
    obtain ⟨name, b⟩ := entry
    rw [List.map_cons, List.nodup_cons] at hnodup
    rw [List.lookup_cons, List.mem_cons, Prod.mk.injEq]
    by_cases hname : key = name
    · subst hname
      have habsent : (key, a) ∉ entries := fun hmem => hnodup.1 (List.mem_map.mpr ⟨_, hmem, rfl⟩)
      simp [habsent, eq_comm]
    · have hbeq : (key == name) = false := beq_false_of_ne hname
      simp [hbeq, hname, ih hnodup.2]

theorem Same.refl (self : HashMap A) : self.Same self := fun _ => rfl

theorem Same.symm {self other : HashMap A} (h : self.Same other) : other.Same self :=
  fun key => (h key).symm

def serialize_entry [Serialize A] (entry : String × A) : Except Error (String × Data) :=
  Prod.mk entry.1 <$> serialize entry.2

instance [Serialize A] : Serialize (HashMap A) where
  serialize self := .map <$> self.entries.mapM serialize_entry

def visit_entry [Deserialize A] (self : HashMap A) (entry : String × Json) :
    Except Error (HashMap A) := do
  let a ← deserialize entry.2
  .ok (self.insert entry.1 a)

instance [Deserialize A] : Deserialize (HashMap A) where
  deserialize
    | .obj entries => entries.foldlM visit_entry new
    | _ => .error (.invalid_type "a map")

/-- Everything that ends up in a map was in it before, or was decoded from the
    value of an entry with its key. -/
theorem mem_of_foldlM_visit_entry [Deserialize A] {entries : List (String × Json)}
    {self result : HashMap A} (h : entries.foldlM visit_entry self = .ok result) {entry : String × A}
    (hmem : entry ∈ result.entries) :
    entry ∈ self.entries ∨ ∃ j, (entry.1, j) ∈ entries ∧ deserialize j = .ok entry.2 := by
  induction entries generalizing self with
  | nil =>
    cases h
    exact .inl hmem
  | cons head entries ih =>
    rw [List.foldlM_cons] at h
    obtain ⟨mid, hmid, h⟩ := bind_eq_ok_iff.mp h
    obtain ⟨a, ha, hmid⟩ := bind_eq_ok_iff.mp hmid
    cases hmid
    obtain hin | ⟨j, hj, hread⟩ := ih h
    · obtain rfl | hin := mem_insert_entry hin
      · exact .inr ⟨head.2, List.mem_cons_self, ha⟩
      · exact .inl hin
    · exact .inr ⟨j, List.mem_cons_of_mem _ hj, hread⟩

/-- Every entry of a decoded map comes from a member of the document, with the key
    of the member and a value that is decoded from its value. -/
theorem mem_of_deserialize [Deserialize A] {j : Json} {self : HashMap A}
    (h : deserialize j = .ok self) {entry : String × A} (hmem : entry ∈ self.entries) :
    ∃ members value, j = .obj members ∧ (entry.1, value) ∈ members ∧
      deserialize value = .ok entry.2 := by
  cases j using Json.casesOn with
  | obj members =>
    obtain hmem | ⟨value, hvalue, hread⟩ := mem_of_foldlM_visit_entry h hmem
    · cases hmem
    · exact ⟨members, value, rfl, hvalue, hread⟩
  | _ => cases h

/-- Entries are written one by one, and read back into any map that has none of
    their keys yet, behind the entries of this map. The induction is on the
    entries, and the map grows with it. -/
theorem mapM_serialize_entry [Serialize A] [Deserialize A] [Survives Eq A]
    (entries : List (String × A)) : ∃ data, entries.mapM serialize_entry = .ok data ∧
      ∀ self : HashMap A, (hnodup : ((self.entries ++ entries).map Prod.fst).Nodup) →
        (document data).foldlM visit_entry self = .ok ⟨self.entries ++ entries, hnodup⟩ := by
  induction entries with
  | nil => exact ⟨[], rfl, fun self _ => by simp [pure, Except.pure]⟩
  | cons entry entries ih =>
    obtain ⟨head, hhead, hread⟩ := Survives.survives (R := Eq) entry.2
    obtain ⟨tail, htail, hfold⟩ := ih
    refine ⟨(entry.1, head) :: tail, ?_, ?_⟩
    · rw [List.mapM_cons, serialize_entry, hhead, map_ok, ok_bind, htail]
      rfl
    · intro self hnodup
      have hnotMem : entry.1 ∉ self.entries.map Prod.fst := by
        intro hmem
        rw [List.map_append, List.map_cons, List.nodup_append] at hnodup
        exact hnodup.2.2 _ hmem _ List.mem_cons_self rfl
      have hinsert : (self.insert entry.1 entry.2).entries = self.entries ++ [entry] :=
        insert_entry_of_notMem hnotMem
      have hnodup' : (((self.insert entry.1 entry.2).entries ++ entries).map Prod.fst).Nodup := by
        rwa [hinsert, List.append_assoc, List.singleton_append]
      rw [document_cons, List.foldlM_cons, visit_entry, hread _ rfl, ok_bind, ok_bind,
        hfold _ hnodup']
      simp only [hinsert, List.append_assoc, List.singleton_append]

instance [Serialize A] [Deserialize A] [Survives Eq A] : Survives Eq (HashMap A) where
  survives self := by
    obtain ⟨data, hdata, hread⟩ := mapM_serialize_entry self.entries
    refine ⟨.map data, map_eq_ok_iff.mpr ⟨data, hdata, rfl⟩, ?_⟩
    rintro _ rfl
    rw [Data.to_json_map]
    exact hread new self.nodup_keys

/-- The members of a map nest as deeply as its values do. Keys are strings, and
    nest nothing. -/
theorem mapM_serialize_entry_depth [Serialize A] {entries : List (String × A)}
    {data : List (String × Data)} (h : entries.mapM serialize_entry = .ok data) {bound : Nat} :
    Json.depthMembers (document data) ≤ bound ↔
      ∀ entry ∈ entries, NestsAtMost serialize bound entry.2 := by
  induction entries generalizing data with
  | nil =>
    cases h
    simp [Json.depthMembers]
  | cons entry entries ih =>
    rw [List.mapM_cons] at h
    obtain ⟨head, hhead, h⟩ := bind_eq_ok_iff.mp h
    obtain ⟨value, hvalue, rfl⟩ := map_eq_ok_iff.mp hhead
    obtain ⟨tail, htail, h⟩ := bind_eq_ok_iff.mp h
    cases h
    rw [document_cons, Json.depthMembers_cons, Nat.max_le, ih htail, List.forall_mem_cons]
    simp only [NestsAtMost, hvalue, Except.ok.injEq, forall_eq']

/-- A map nests one level more than its values. -/
theorem nestsAtMost_iff [Serialize A] [Deserialize A] [Survives Eq A] (self : HashMap A)
    (bound : Nat) : NestsAtMost serialize (bound + 1) self ↔
      ∀ entry ∈ self.entries, NestsAtMost serialize bound entry.2 := by
  obtain ⟨data, hdata, _⟩ := mapM_serialize_entry self.entries
  have hserialize : serialize self = .ok (.map data) := map_eq_ok_iff.mpr ⟨data, hdata, rfl⟩
  simp only [NestsAtMost, hserialize, Except.ok.injEq, forall_eq', Data.to_json_map, Json.depth_obj,
    Nat.add_le_add_iff_right]
  exact mapM_serialize_entry_depth hdata

end HashMap

end serde
