import JieziCloud.Serde.Struct.Document

open json result

namespace serde

/-- What a document gives to a field: its one member, or without one the value
    of its absence. -/
def Field.ReadAs {A : Type} (self : Field A) (entries : List (String × Json)) (a : A) : Prop :=
  (values self.name entries = [] ∧ self.absent = .ok a) ∨ self.Given entries a

@[simp] theorem Fields.readFrom_nil (entries : List (String × Json)) (row : Unit) :
    Fields.nil.ReadFrom entries row :=
  trivial

@[simp] theorem Fields.readFrom_cons {A B : Type} {head : Field A} {rest : Fields B}
    {entries : List (String × Json)} {row : A × B} :
    (Fields.cons head rest).ReadFrom entries row ↔
      head.ReadAs entries row.1 ∧ rest.ReadFrom entries row.2 :=
  Iff.rfl

/-- A document gives a field one value at most: it has one member of the name, and
    decoding is a function. -/
theorem Field.Given.unique {A : Type} {self : Field A} {entries : List (String × Json)} {a b : A}
    (ha : self.Given entries a) (hb : self.Given entries b) : a = b := by
  obtain ⟨j, hvalues, hread⟩ := ha
  obtain ⟨k, hvalues', hread'⟩ := hb
  rw [hvalues, List.cons.injEq] at hvalues'
  obtain ⟨rfl, _⟩ := hvalues'
  rw [hread, Except.ok.injEq] at hread'
  exact hread'

/-- A field that the document gives is read as what it gives. -/
theorem Field.Given.readAs_iff {A : Type} {self : Field A} {entries : List (String × Json)} {a : A}
    (h : self.Given entries a) (b : A) : self.ReadAs entries b ↔ b = a := by
  constructor
  · rintro (⟨hnone, _⟩ | hgiven)
    · obtain ⟨j, hvalues, _⟩ := h
      rw [hnone] at hvalues
      cases hvalues
    · exact hgiven.unique h
  · rintro rfl
    exact .inr h

/-- A field of a plain type cannot do without its member. -/
theorem Field.readAs_iff_of_required {A : Type} [Serialize A] [Deserialize A] {name : String}
    {error : Error} (hmissing : Deserialize.missing_field (A := A) name = .error error)
    (entries : List (String × Json)) (a : A) :
    (field name : Field A).ReadAs entries a ↔ (field name : Field A).Given entries a := by
  constructor
  · rintro (⟨_, habsent⟩ | hgiven)
    · rw [Field.absent, field, hmissing] at habsent
      cases habsent
    · exact hgiven
  · exact .inr

theorem Field.Given.values_ne_nil {A : Type} {self : Field A} {entries : List (String × Json)} {a : A}
    (h : self.Given entries a) : values self.name entries ≠ [] := by
  obtain ⟨j, hvalues, _⟩ := h
  simp [hvalues]

/-- A field with a default has its member, or the default without one. -/
theorem Field.readAs_or_default_iff {A : Type} [Serialize A] [Deserialize A] {name : String}
    {value a : A} {entries : List (String × Json)} :
    ((field name).or_default value).ReadAs entries a ↔
      (values name entries = [] ∧ value = a) ∨ (field name : Field A).Given entries a := by
  simp [Field.ReadAs, Field.absent, Field.or_default, Field.Given, field]

/-- Without its default, a field that was read is given what it was read as, if
    it has a member at all. -/
theorem Field.ReadAs.given_iff {A : Type} [Serialize A] [Deserialize A] {name : String} {value a : A}
    {entries : List (String × Json)} (h : ((field name).or_default value).ReadAs entries a) (b : A) :
    (field name : Field A).Given entries b ↔ b = a ∧ values name entries ≠ [] := by
  rw [readAs_or_default_iff] at h
  constructor
  · intro hb
    have hsome : values name entries ≠ [] := hb.values_ne_nil
    obtain ⟨hnone, _⟩ | ha := h
    · exact absurd hnone hsome
    · exact ⟨hb.unique ha, hsome⟩
  · rintro ⟨rfl, hsome⟩
    obtain ⟨hnone, _⟩ | ha := h
    · exact absurd hnone hsome
    · exact ha

/-- An option can do without its member, and is none then. A member that is null
    gives none as well. -/
theorem Field.readAs_option_iff {A : Type} [Serialize A] [Deserialize A] {name : String}
    {a : Option A} {entries : List (String × Json)} :
    (field name : Field (Option A)).ReadAs entries a ↔
      (values name entries = [] ∧ none = a) ∨ (field name : Field (Option A)).Given entries a := by
  simp [Field.ReadAs, Field.absent, Field.Given, field, Deserialize.missing_field]

/-- What a struct makes of an object, in terms of its members. -/
theorem Struct.deserialize_obj_eq_ok_iff {S B : Type} (self : Struct S B)
    (hnames : self.fields.names.Nodup) {entries : List (String × Json)} {s : S} :
    self.deserialize (.obj entries) = .ok s ↔ self.fields.ReadFrom entries (self.row s) := by
  rw [← Fields.visit_map_eq_ok_iff hnames, Struct.deserialize, Fields.deserialize, Fields.visit,
    map_eq_ok_iff]
  constructor
  · rintro ⟨row, hrow, rfl⟩
    rwa [Equiv.apply_symm_apply]
  · intro h
    exact ⟨_, h, self.row.symm_apply_apply s⟩

/-- A document gives the written fields of a row their values. -/
def Fields.Kept {B : Type} : Fields B → List (String × Json) → B → Prop
  | .nil, _, _ => True
  | .cons head rest, entries, (a, row) =>
    (head.skip_serializing = false → head.Given entries a) ∧ rest.Kept entries row

@[simp] theorem Fields.kept_nil (entries : List (String × Json)) (row : Unit) :
    Fields.nil.Kept entries row :=
  trivial

@[simp] theorem Fields.kept_field {A B : Type} [Serialize A] [Deserialize A] {name : String}
    {rest : Fields B} {entries : List (String × Json)} {row : A × B} :
    (Fields.cons (field name) rest).Kept entries row ↔
      (field name : Field A).Given entries row.1 ∧ rest.Kept entries row.2 := by
  simp [Fields.Kept, field]

@[simp] theorem Fields.kept_unserialized {A B : Type} [Serialize A] [Deserialize A] {name : String}
    {rest : Fields B} {entries : List (String × Json)} {row : A × B} :
    (Fields.cons (field name).unserialized rest).Kept entries row ↔ rest.Kept entries row.2 := by
  simp [Fields.Kept, Field.unserialized]

/-- Whatever keeps the members that occur once keeps what the written fields are
    given. -/
theorem Fields.WrittenIn.kept {B : Type} {R : Json → Json → Prop} {self : Fields B}
    {written entries : List (String × Json)} {row : B} (h : self.WrittenIn written row)
    (hsurvive : self.Survive R)
    (hkept : ∀ key value, values key written = [value] →
      ∃ found, values key entries = [found] ∧ R value found) : self.Kept entries row := by
  induction self with
  | nil => trivial
  | cons head rest ih =>
    obtain ⟨a, row⟩ := row
    refine ⟨?_, ih h.2 hsurvive.2⟩
    intro hskip
    obtain ⟨data, hdata, hvalues⟩ : ∃ data, head.serialize a = .ok data ∧
        values head.name written = [data.to_json] := by simpa [hskip] using h.1
    obtain ⟨data', hdata', hdecode⟩ := hsurvive.1 a
    rw [hdata, Except.ok.injEq] at hdata'
    subst hdata'
    obtain ⟨found, hfound, hR⟩ := hkept _ _ hvalues
    exact ⟨found, hfound, hdecode found hR⟩

/-- Whatever the relation makes of the document of a struct still gives every
    written field its value, to this decoder and to any other. -/
theorem Struct.kept {S B : Type} {R : Json → Json → Prop} [Disturbance R] (self : Struct S B)
    (hnames : self.fields.names.Nodup) (hsurvive : self.fields.Survive R) {s : S} {data : Data}
    (hdata : self.serialize s = .ok data) {j : Json} (hj : R data.to_json j) :
    ∃ entries, j = .obj entries ∧ self.fields.Kept entries (self.row s) := by
  obtain ⟨members, hmembers, rfl⟩ := map_eq_ok_iff.mp hdata
  rw [Data.to_json_struct] at hj
  obtain ⟨entries, rfl, hkept⟩ := Disturbance.obj hj
  exact ⟨entries, rfl, (Fields.serialize_written hnames hmembers).kept hsurvive hkept⟩

/-- The document is an object with one member of the name, which decodes to the
    value. -/
def Holds {A : Type} [Serialize A] [Deserialize A] (document : Json) (name : String) (a : A) : Prop :=
  ∃ entries, document = .obj entries ∧ (field name : Field A).Given entries a

/-- For an object, holding a value is giving it to a plain field of the name. -/
theorem holds_obj_iff {A : Type} [Serialize A] [Deserialize A] {entries : List (String × Json)}
    {name : String} {a : A} :
    Holds (.obj entries) name a ↔ (field name : Field A).Given entries a := by
  simp [Holds]

/-- The document is an object without a member of the name. -/
def Lacks (document : Json) (name : String) : Prop :=
  ∃ entries, document = .obj entries ∧ values name entries = []

theorem lacks_obj_iff {entries : List (String × Json)} {name : String} :
    Lacks (.obj entries) name ↔ values name entries = [] := by
  simp [Lacks]

/-- The document of a struct holds nothing but its own fields. -/
theorem Struct.not_holds {S B A : Type} [Serialize A] [Deserialize A] (self : Struct S B) {s : S}
    {data : Data} (hdata : self.serialize s = .ok data) {name : String}
    (hname : name ∉ self.fields.names) (a : A) : ¬Holds data.to_json name a := by
  obtain ⟨members, hmembers, rfl⟩ := map_eq_ok_iff.mp hdata
  rw [Data.to_json_struct, holds_obj_iff]
  rintro ⟨j, hvalues, _⟩
  have hnone : values name (document members) = [] :=
    Fields.values_document_of_notMem hmembers hname
  rw [field, hnone] at hvalues
  cases hvalues

end serde
