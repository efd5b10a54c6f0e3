import JieziCloud.Serde.Tagged
import JieziCloud.Serde.Nesting

open json result

namespace serde

/-- Taking the tag out of an object leaves the members of every other name. -/
theorem Fields.Carried.filter_tag {B : Type} {self : Fields B} {entries : List (String × Json)}
    {row : B} (h : self.Carried entries row) {tag : String} (htag : tag ∉ self.names) :
    self.Carried (entries.filter fun entry => entry.1 ≠ tag) row := by
  induction self with
  | nil => trivial
  | cons head rest ih =>
    obtain ⟨a, row⟩ := row
    simp only [Fields.names, List.mem_cons, not_or] at htag
    refine ⟨?_, ih h.2 htag.2⟩
    simpa only [Field.Given, values_filter_ne (Ne.symm htag.1)] using h.1

/-- A struct variant survives every disturbance that its fields survive: the
    tag is found wherever it stands, and nothing but the tag is read twice. -/
theorem Tagged.survives_struct {B E : Type} {R : Json → Json → Prop} [Disturbance R]
    (self : Tagged E) (variant : StructVariant E B)
    (hmem : variant.variant self.container ∈ self.variants)
    (hnames : (self.tag :: variant.fields.names).Nodup) (hsurvive : variant.fields.Survive R)
    (hall : variant.fields.unserialized = []) (row : B) :
    ∃ data, self.serialize_struct variant row = .ok data ∧
      ∀ j, R data.to_json j → self.deserialize j = .ok (variant.make row) := by
  rw [List.nodup_cons] at hnames
  obtain ⟨members, hmembers⟩ := hsurvive.serialize row
  have hserialize : self.serialize_struct variant row =
      .ok (.struct ((self.tag, .str (snake_case variant.identifier)) :: members)) := by
    rw [serialize_struct, hmembers, ok_bind]
  refine ⟨_, hserialize, ?_⟩
  intro j hj
  rw [Data.to_json_struct, document_cons] at hj
  obtain ⟨entries, rfl, hkept⟩ := Disturbance.obj hj
  have htag : values self.tag entries = [.str (snake_case variant.identifier)] := by
    have honce : values self.tag ((self.tag, (Data.str (snake_case variant.identifier)).to_json) ::
        document members) = [.str (snake_case variant.identifier)] := by
      rw [values_cons, if_pos rfl, Fields.values_document_of_notMem hmembers hnames.1, Data.to_json]
    obtain ⟨found, hfound, hR⟩ := hkept _ _ honce
    rw [hfound, Disturbance.eq_str hR]
  have hwritten : variant.fields.WrittenIn
      ((self.tag, (Data.str (snake_case variant.identifier)).to_json) :: document members) row :=
    (Fields.serialize_written hnames.2 hmembers).cons hnames.1
  have hcarried := (hwritten.carried hsurvive hkept (by simp [hall])).filter_tag hnames.1
  rw [self.deserialize_of_tag hmem htag, StructVariant.variant]
  simp only [Fields.from_content, Fields.visit, Fields.visit_map_of_carried hnames.2 hcarried,
    Fields.retained_of_unserialized_nil hall, map_ok]

/-- A unit variant is its tag alone and survives every disturbance. Members that
    come in beside the tag are ignored. -/
theorem Tagged.survives_unit {E : Type} {R : Json → Json → Prop} [Disturbance R] (self : Tagged E)
    (identifier : String) (e : E) (hmem : Variant.unit identifier e ∈ self.variants) :
    ∃ data, self.serialize_unit identifier = .ok data ∧
      ∀ j, R data.to_json j → self.deserialize j = .ok e := by
  refine ⟨.struct [(self.tag, .str (snake_case identifier))], rfl, ?_⟩
  intro j hj
  rw [Data.to_json_struct, document_cons, document_nil] at hj
  obtain ⟨entries, rfl, hkept⟩ := Disturbance.obj hj
  have honce : values self.tag [(self.tag, (Data.str (snake_case identifier)).to_json)] =
      [.str (snake_case identifier)] := by
    rw [values_cons, if_pos rfl, values_nil, Data.to_json]
  obtain ⟨found, hfound, hR⟩ := hkept _ _ honce
  rw [Disturbance.eq_str hR] at hfound
  rw [self.deserialize_of_tag hmem hfound]
  rfl

/-- The tag is a string, so a struct variant nests like the struct of its fields.
    -/
theorem Tagged.struct_nestsAtMost {B E : Type} (self : Tagged E) {variant : StructVariant E B}
    {row : B} {bound : Nat} (h : variant.fields.NestAtMost bound row) {data : Data}
    (hdata : self.serialize_struct variant row = .ok data) : data.to_json.depth ≤ bound + 1 := by
  obtain ⟨members, hmembers, hdata⟩ := bind_eq_ok_iff.mp hdata
  cases hdata
  rw [Data.to_json_struct, document_cons, Json.depth_obj, Nat.add_le_add_iff_right,
    Json.depthMembers_cons, Nat.max_le]
  exact ⟨Nat.zero_le _, (Fields.serialize_depth hmembers).mpr h⟩

/-- A unit variant is an object of its tag, and one level deep. -/
theorem Tagged.unit_nestsAtMost {E : Type} (self : Tagged E) {identifier : String} {bound : Nat}
    {data : Data} (hdata : self.serialize_unit identifier = .ok data) :
    data.to_json.depth ≤ bound + 1 := by
  cases hdata
  rw [Data.to_json_struct, document_cons, document_nil, Json.depth_obj, Nat.add_le_add_iff_right,
    Json.depthMembers_cons, Nat.max_le]
  exact ⟨Nat.zero_le _, Nat.zero_le _⟩

/-- The content of a newtype variant must be a map or a struct. A content that
    is a string under any number of newtypes cannot be serialized at all. -/
theorem Tagged.serialize_newtype_of_str {A E : Type} [Serialize A] (self : Tagged E)
    (identifier : String) {a : A} {text : String}
    (h : serialize a = .ok (.newtype_struct (.str text))) :
    self.serialize_newtype identifier a = .error (self.refuse identifier "a string") := by
  rw [serialize_newtype, h, ok_bind, Data.insert_tag, Data.insert_tag]

end serde
