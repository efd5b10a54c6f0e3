import JieziCloud.Serde.Enum
import JieziCloud.Serde.Struct.Document

open json result

namespace serde

/-- The document of a value, if it has one, nests at most `bound` deep. -/
def NestsAtMost {A : Type} (serialize : A → Except Error Data) (bound : Nat) (a : A) : Prop :=
  ∀ data, serialize a = .ok data → data.to_json.depth ≤ bound

/-- For a value that is serialized, nesting is the depth of its document. -/
theorem nestsAtMost_iff_of_ok {A : Type} {serialize : A → Except Error Data} {a : A} {data : Data}
    (h : serialize a = .ok data) {bound : Nat} :
    NestsAtMost serialize bound a ↔ data.to_json.depth ≤ bound := by
  simp only [NestsAtMost, h, Except.ok.injEq, forall_eq']

/-- The documents of the type nest nothing. -/
class Flat (A : Type) [Serialize A] : Prop where
  nestsAtMost : ∀ (a : A) bound, NestsAtMost serialize bound a

attribute [simp] Flat.nestsAtMost

/-- Scalars respect any bound, zero included. -/
theorem nestsAtMost_of_isScalar {data : Data} (h : data.to_json.IsScalar) (bound : Nat) :
    data.to_json.depth ≤ bound := by
  cases hdocument : data.to_json using Json.casesOn <;>
    simp_all [Json.depth, Json.IsScalar]

/-- A type whose values are written as scalars is flat. -/
theorem flat_of_scalar {A : Type} [Serialize A] {encode : A → Data}
    (hserialize : ∀ a, serialize a = .ok (encode a)) (hscalar : ∀ a, (encode a).to_json.IsScalar) :
    Flat A where
  nestsAtMost a bound data hdata := by
    rw [hserialize, Except.ok.injEq] at hdata
    subst hdata
    exact nestsAtMost_of_isScalar (hscalar a) bound

instance : Flat Bool := flat_of_scalar (fun _ => rfl) (fun _ => trivial)

instance : Flat String := flat_of_scalar (fun _ => rfl) (fun _ => trivial)

instance : Flat UInt8 := flat_of_scalar (fun _ => rfl) (fun _ => trivial)

instance : Flat UInt32 := flat_of_scalar (fun _ => rfl) (fun _ => trivial)

instance : Flat UInt64 := flat_of_scalar (fun _ => rfl) (fun _ => trivial)

instance {A : Type} [Serialize A] [Flat A] : Flat (Option A) where
  nestsAtMost a bound data hdata := by
    cases a with
    | none =>
      cases hdata
      simp [Data.to_json, Json.depth]
    | some a =>
      obtain ⟨inner, hinner, rfl⟩ := map_eq_ok_iff.mp hdata
      rw [Data.to_json]
      exact Flat.nestsAtMost a bound inner hinner

/-- A variant without content is written as its name. -/
theorem UnitEnum.nestsAtMost {E : Type} (self : UnitEnum E) (e : E) (bound : Nat) :
    NestsAtMost self.serialize bound e := by
  intro data hdata
  cases hdata
  exact nestsAtMost_of_isScalar (by simp [Data.to_json, Json.IsScalar]) bound

/-- The items of a list nest as deeply as the values that they are written from.
    -/
theorem mapM_serialize_depth {A : Type} [Serialize A] {items : List A} {data : List Data}
    (h : items.mapM serialize = .ok data) {bound : Nat} :
    Json.depthItems (data.map Data.to_json) ≤ bound ↔
      ∀ a ∈ items, NestsAtMost serialize bound a := by
  induction items generalizing data with
  | nil =>
    cases h
    simp [Json.depthItems]
  | cons a items ih =>
    rw [List.mapM_cons] at h
    obtain ⟨head, hhead, h⟩ := bind_eq_ok_iff.mp h
    obtain ⟨tail, htail, h⟩ := bind_eq_ok_iff.mp h
    cases h
    rw [List.map_cons, Json.depthItems_cons, Nat.max_le, ih htail, List.forall_mem_cons]
    simp only [NestsAtMost, hhead, Except.ok.injEq, forall_eq']

/-- A list nests one level more than its items. -/
theorem list_nestsAtMost {A : Type} [Serialize A] {items : List A} {bound : Nat}
    (h : ∀ a ∈ items, NestsAtMost serialize bound a) :
    NestsAtMost (serialize (A := List A)) (bound + 1) items := by
  intro data hdata
  obtain ⟨inner, hinner, rfl⟩ := map_eq_ok_iff.mp hdata
  rw [Data.to_json_seq, Json.depth_arr, Nat.add_le_add_iff_right]
  exact (mapM_serialize_depth hinner).mpr h

/-- And no less than that, as soon as all its items can be written. -/
theorem list_nestsAtMost_iff {A : Type} [Serialize A] {items : List A} {data : List Data}
    (hdata : items.mapM serialize = .ok data) {bound : Nat} :
    NestsAtMost (serialize (A := List A)) (bound + 1) items ↔
      ∀ a ∈ items, NestsAtMost serialize bound a := by
  have hseq : serialize items = .ok (.seq data) := by simp [serialize, hdata]
  rw [nestsAtMost_iff_of_ok hseq, Data.to_json_seq, Json.depth_arr, Nat.add_le_add_iff_right,
    mapM_serialize_depth hdata]

/-- Every written field of a row nests at most `bound` deep. -/
def Fields.NestAtMost {B : Type} : Fields B → Nat → B → Prop
  | .nil, _, _ => True
  | .cons head rest, bound, (a, row) =>
    (head.skip_serializing = false → NestsAtMost head.serialize bound a) ∧ rest.NestAtMost bound row

@[simp] theorem Fields.nestAtMost_nil (bound : Nat) (row : Unit) :
    Fields.nil.NestAtMost bound row :=
  trivial

section attributes

variable {A B : Type} [Serialize A] [Deserialize A] {name : String} {rest : Fields B} {bound : Nat}
  {row : A × B}

/-- Every written field has to respect the bound; how it is read is no matter. -/
@[simp] theorem Fields.nestAtMost_field :
    (Fields.cons (field name) rest).NestAtMost bound row ↔
      NestsAtMost Serialize.serialize bound row.1 ∧ rest.NestAtMost bound row.2 := by
  simp [Fields.NestAtMost, field]

@[simp] theorem Fields.nestAtMost_or_default {value : A} :
    (Fields.cons ((field name).or_default value) rest).NestAtMost bound row ↔
      NestsAtMost Serialize.serialize bound row.1 ∧ rest.NestAtMost bound row.2 := by
  simp [Fields.NestAtMost, Field.or_default, field]

/-- How a field is decoded has no part in how deeply it nests. -/
@[simp] theorem Fields.nestAtMost_buffered {from_content : Json → Except Error A} :
    (Fields.cons ((field name).buffered from_content) rest).NestAtMost bound row ↔
      NestsAtMost Serialize.serialize bound row.1 ∧ rest.NestAtMost bound row.2 := by
  simp [Fields.NestAtMost, Field.buffered, field]

/-- A field that is not written nests nothing. -/
@[simp] theorem Fields.nestAtMost_unserialized :
    (Fields.cons (field name).unserialized rest).NestAtMost bound row ↔
      rest.NestAtMost bound row.2 := by
  simp [Fields.NestAtMost, Field.unserialized, field]

end attributes

/-- The members of a struct nest as deeply as its written fields, and the fields
    that are skipped do not count. -/
theorem Fields.serialize_depth {B : Type} {self : Fields B} {row : B}
    {members : List (String × Data)} (h : self.serialize row = .ok members) {bound : Nat} :
    Json.depthMembers (document members) ≤ bound ↔ self.NestAtMost bound row := by
  induction self generalizing members with
  | nil =>
    cases h
    simp [Json.depthMembers, Fields.NestAtMost]
  | cons head rest ih =>
    obtain ⟨a, row⟩ := row
    rw [Fields.serialize] at h
    cases hskip : head.skip_serializing with
    | true =>
      rw [if_pos hskip] at h
      simp [Fields.NestAtMost, hskip, ih h]
    | false =>
      rw [if_neg (by simp [hskip])] at h
      obtain ⟨data, hdata, h⟩ := bind_eq_ok_iff.mp h
      obtain ⟨tail, htail, h⟩ := bind_eq_ok_iff.mp h
      cases h
      rw [document_cons, Json.depthMembers_cons, Nat.max_le, ih htail]
      simp [Fields.NestAtMost, hskip, NestsAtMost, hdata]

/-- A struct nests one level more than the fields it writes. -/
theorem Struct.depth_le_iff {S B : Type} (self : Struct S B) {s : S} {data : Data}
    (h : self.serialize s = .ok data) {bound : Nat} :
    data.to_json.depth ≤ bound + 1 ↔ self.fields.NestAtMost bound (self.row s) := by
  obtain ⟨members, hmembers, rfl⟩ := map_eq_ok_iff.mp h
  rw [Data.to_json_struct, Json.depth_obj, Nat.add_le_add_iff_right, Fields.serialize_depth hmembers]

/-- A struct adds one level to the deepest of its written fields. -/
theorem Struct.nestsAtMost_iff {S B : Type} {R : Json → Json → Prop} (self : Struct S B)
    (hsurvive : self.fields.Survive R) {s : S} {bound : Nat} :
    NestsAtMost self.serialize (bound + 1) s ↔ self.fields.NestAtMost bound (self.row s) := by
  obtain ⟨members, hmembers⟩ := hsurvive.serialize (self.row s)
  have hserialize : self.serialize s = .ok (.struct members) := by
    rw [Struct.serialize, hmembers, map_ok]
  rw [nestsAtMost_iff_of_ok hserialize, self.depth_le_iff hserialize]

/-- For the bound itself it does not matter whether the fields serialize. -/
theorem Struct.nestsAtMost {S B : Type} (self : Struct S B) {s : S} {bound : Nat}
    (h : self.fields.NestAtMost bound (self.row s)) : NestsAtMost self.serialize (bound + 1) s :=
  fun _ hdata => (self.depth_le_iff hdata).mpr h

/-- A value that nests little enough is read as its document is decoded. -/
theorem rereads_of_nestsAtMost {A : Type} [Serialize A] [Deserialize A] [TextFormat recursion_limit]
    {a : A} {data : Data} (h : serialize a = .ok data) (hdepth : NestsAtMost serialize recursion_limit a) :
    Rereads a (deserialize data.to_json) :=
  ⟨_, to_string_eq_ok h, from_str_write (hdepth data h)⟩

/-- A value that nests too deeply is written all the same, and never read. -/
theorem rereads_of_not_nestsAtMost {A : Type} [Serialize A] [Deserialize A]
    [TextFormat recursion_limit] {a : A} {data : Data} (h : serialize a = .ok data)
    (hdepth : ¬NestsAtMost serialize recursion_limit a) :
    Rereads a (.error (.unreadable .recursion_limit_exceeded)) := by
  rw [nestsAtMost_iff_of_ok h] at hdepth
  exact ⟨_, to_string_eq_ok h, from_str_write_of_lt (Nat.lt_of_not_le hdepth)⟩

/-- A type that survives is read back in full, within the limit. -/
theorem rereads_self {A : Type} [Serialize A] [Deserialize A] [Survives Eq A]
    [TextFormat recursion_limit] {a : A} (hdepth : NestsAtMost serialize recursion_limit a) :
    Rereads a (.ok a) := by
  obtain ⟨data, hdata, hdecode⟩ := Survives.survives (R := Eq) a
  rw [← hdecode _ rfl]
  exact rereads_of_nestsAtMost hdata hdepth

/-- A struct is read back as what its fields retain, within the limit. -/
theorem Struct.rereads {S B : Type} [TextFormat recursion_limit] (self : Struct S B)
    (hnames : self.fields.names.Nodup) (hsurvive : self.fields.Survive Eq) {s : S}
    (hdepth : NestsAtMost self.serialize recursion_limit s) :
    @Rereads S ⟨self.serialize⟩ { deserialize := self.deserialize } _ s
      (self.row.symm <$> self.fields.retained (self.row s)) := by
  obtain ⟨data, hdata, hdecode⟩ := self.deserialize_serialize hnames hsurvive s
  rw [← hdecode]
  let _ : Serialize S := ⟨self.serialize⟩
  let _ : Deserialize S := { deserialize := self.deserialize }
  exact rereads_of_nestsAtMost hdata hdepth

/-- What respects a bound respects every larger one, the limit of the reader among
    them. -/
theorem NestsAtMost.mono {A : Type} {serialize : A → Except Error Data} {a : A} {small large : Nat}
    (h : NestsAtMost serialize small a) (hle : small ≤ large) : NestsAtMost serialize large a :=
  fun data hdata => Nat.le_trans (h data hdata) hle

end serde
