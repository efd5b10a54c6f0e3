import JieziCloud.Serde.Struct.Visit

open json result

namespace serde

/-- An object holds the written fields of a row, one member each, and none
    under the names of the others. -/
def Fields.WrittenIn {B : Type} : Fields B → List (String × Json) → B → Prop
  | .nil, _, _ => True
  | .cons head rest, entries, (a, row) =>
    (if head.skip_serializing then values head.name entries = []
      else ∃ data, head.serialize a = .ok data ∧ values head.name entries = [data.to_json]) ∧
      rest.WrittenIn entries row

/-- A further member of another name does not get in the way of the fields. -/
theorem Fields.WrittenIn.cons {B : Type} {self : Fields B} {entries : List (String × Json)}
    {row : B} (h : self.WrittenIn entries row) {entry : String × Json}
    (hname : entry.1 ∉ self.names) : self.WrittenIn (entry :: entries) row := by
  induction self with
  | nil => trivial
  | cons head rest ih =>
    obtain ⟨a, row⟩ := row
    simp only [Fields.names, List.mem_cons, not_or] at hname
    refine ⟨?_, ih h.2 hname.2⟩
    simpa only [values_cons, if_neg hname.1] using h.1

/-- A struct writes no member under any name but those of its fields, whether they
    are written or skipped. -/
theorem Fields.serialize_names {B : Type} {self : Fields B} {row : B}
    {members : List (String × Data)} (h : self.serialize row = .ok members) :
    ∀ member ∈ members, member.1 ∈ self.names := by
  induction self generalizing members with
  | nil =>
    cases h
    simp
  | cons head rest ih =>
    obtain ⟨a, row⟩ := row
    rw [Fields.serialize] at h
    split at h
    · intro member hmember
      exact List.mem_cons_of_mem _ (ih h member hmember)
    · simp only [bind_eq_ok_iff, Except.ok.injEq] at h
      obtain ⟨data, _, tail, htail, rfl⟩ := h
      intro member hmember
      rw [List.mem_cons] at hmember
      obtain rfl | hmember := hmember
      · exact List.mem_cons_self
      · exact List.mem_cons_of_mem _ (ih htail member hmember)

/-- So no other name has a value in its document. -/
theorem Fields.values_document_of_notMem {B : Type} {self : Fields B} {row : B}
    {members : List (String × Data)} (h : self.serialize row = .ok members) {key : String}
    (hkey : key ∉ self.names) : values key (document members) = [] := by
  rw [values_eq_nil_iff, document, List.map_map]
  intro hmem
  obtain ⟨member, hmember, rfl⟩ := List.mem_map.mp hmem
  exact hkey (serialize_names h member hmember)

/-- Serializing a row writes its fields into the object and leaves no trace of
    the unserialized ones. -/
theorem Fields.serialize_written {B : Type} {self : Fields B} (hnames : self.names.Nodup) {row : B}
    {members : List (String × Data)} (h : self.serialize row = .ok members) :
    self.WrittenIn (document members) row := by
  induction self generalizing members with
  | nil => trivial
  | cons head rest ih =>
    obtain ⟨a, row⟩ := row
    simp only [Fields.names, List.nodup_cons] at hnames
    rw [Fields.serialize] at h
    cases hskip : head.skip_serializing with
    | true =>
      rw [if_pos hskip] at h
      refine ⟨?_, ih hnames.2 h⟩
      rw [if_pos hskip]
      exact values_document_of_notMem h hnames.1
    | false =>
      rw [if_neg (by simp [hskip])] at h
      simp only [bind_eq_ok_iff, Except.ok.injEq] at h
      obtain ⟨data, hdata, tail, htail, rfl⟩ := h
      refine ⟨?_, (ih hnames.2 htail).cons hnames.1⟩
      rw [if_neg (by simp [hskip])]
      refine ⟨data, hdata, ?_⟩
      rw [document_cons, values_cons, if_pos rfl, values_document_of_notMem htail hnames.1]

/-- Every field serializes, and its document survives the disturbance. -/
def Fields.Survive {B : Type} (R : Json → Json → Prop) : Fields B → Prop
  | .nil => True
  | @Fields.cons A _ head rest =>
    (∀ a : A, ∃ data, head.serialize a = .ok data ∧
      ∀ j, R data.to_json j → head.deserialize j = .ok a) ∧ rest.Survive R

/-- The names a decoder waits for although no encoder writes them. -/
def Fields.unserialized {B : Type} : Fields B → List String
  | .nil => []
  | .cons head rest =>
    if head.skip_serializing then head.name :: rest.unserialized else rest.unserialized

/-- A row whose fields survive is serialized in the first place. -/
theorem Fields.Survive.serialize {B : Type} {R : Json → Json → Prop} {self : Fields B}
    (h : self.Survive R) (row : B) : ∃ members, self.serialize row = .ok members := by
  induction self with
  | nil => exact ⟨[], rfl⟩
  | cons head rest ih =>
    obtain ⟨a, row⟩ := row
    obtain ⟨data, hdata, _⟩ := h.1 a
    obtain ⟨members, hmembers⟩ := ih h.2 row
    rw [Fields.serialize]
    split
    · exact ⟨members, hmembers⟩
    · rw [hdata, ok_bind, hmembers, ok_bind]
      exact ⟨(head.name, data) :: members, rfl⟩

/-- A disturbed object still carries the row, as long as no member has come in
    under the name of an unserialized field. -/
theorem Fields.WrittenIn.carried {B : Type} {R : Json → Json → Prop} {self : Fields B}
    {written entries : List (String × Json)} {row : B} (h : self.WrittenIn written row)
    (hsurvive : self.Survive R)
    (hkept : ∀ key value, values key written = [value] →
      ∃ found, values key entries = [found] ∧ R value found)
    (habsent : ∀ name ∈ self.unserialized, values name entries = []) :
    self.Carried entries row := by
  induction self with
  | nil => trivial
  | cons head rest ih =>
    obtain ⟨a, row⟩ := row
    obtain ⟨hhead, hrest⟩ := h
    cases hskip : head.skip_serializing with
    | true =>
      simp only [Fields.unserialized, hskip, if_true, List.forall_mem_cons] at habsent
      refine ⟨?_, ih hrest hsurvive.2 habsent.2⟩
      rw [if_pos hskip]
      exact habsent.1
    | false =>
      simp only [Fields.unserialized, hskip, Bool.false_eq_true, if_false] at habsent hhead
      refine ⟨?_, ih hrest hsurvive.2 habsent⟩
      rw [if_neg (by simp [hskip])]
      obtain ⟨data, hdata, hvalues⟩ := hhead
      obtain ⟨data', hdata', hdecode⟩ := hsurvive.1 a
      rw [hdata, Except.ok.injEq] at hdata'
      subst hdata'
      obtain ⟨found, hfound, hR⟩ := hkept _ _ hvalues
      exact ⟨found, hfound, hdecode found hR⟩

/-- The names that are waited for and never written have no values. -/
theorem Fields.WrittenIn.values_unserialized {B : Type} {self : Fields B}
    {entries : List (String × Json)} {row : B} (h : self.WrittenIn entries row) :
    ∀ name ∈ self.unserialized, values name entries = [] := by
  induction self with
  | nil => simp [Fields.unserialized]
  | cons head rest ih =>
    obtain ⟨a, row⟩ := row
    cases hskip : head.skip_serializing with
    | true =>
      simp only [Fields.unserialized, hskip, if_true, List.forall_mem_cons]
      exact ⟨by simpa [hskip] using h.1, ih h.2⟩
    | false =>
      simpa only [Fields.unserialized, hskip, Bool.false_eq_true, if_false] using ih h.2

/-- A row of which every field is written loses nothing on a trip through its
    document. -/
theorem Fields.retained_of_unserialized_nil {B : Type} {self : Fields B}
    (h : self.unserialized = []) (row : B) : self.retained row = .ok row := by
  induction self with
  | nil => rfl
  | cons head rest ih =>
    obtain ⟨a, row⟩ := row
    cases hskip : head.skip_serializing with
    | true => simp [Fields.unserialized, hskip] at h
    | false =>
      simp only [Fields.unserialized, hskip, Bool.false_eq_true, if_false] at h
      simp [Fields.retained, Field.retained, hskip, ih h]

/-- A struct read back from its own document: the decoder returns what the
    fields retain, or the error for a field that cannot do without its member. -/
theorem Struct.deserialize_serialize {S B : Type} (self : Struct S B)
    (hnames : self.fields.names.Nodup) (hsurvive : self.fields.Survive Eq) (s : S) :
    ∃ data, self.serialize s = .ok data ∧
      self.deserialize data.to_json = self.row.symm <$> self.fields.retained (self.row s) := by
  obtain ⟨members, hmembers⟩ := hsurvive.serialize (self.row s)
  have hserialize : self.serialize s = .ok (.struct members) := by
    rw [Struct.serialize, hmembers, map_ok]
  refine ⟨.struct members, hserialize, ?_⟩
  have hwritten := Fields.serialize_written hnames hmembers
  have hcarried := hwritten.carried hsurvive (fun _ value h => ⟨value, h, rfl⟩)
    hwritten.values_unserialized
  rw [Data.to_json_struct, Struct.deserialize, Fields.deserialize, Fields.visit,
    Fields.visit_map_of_carried hnames hcarried]

/-- A struct whose fields are all written survives whatever its fields do: nothing
    has to be made up for a member that is missing. -/
theorem Struct.survives {S B : Type} {R : Json → Json → Prop} [Disturbance R] (self : Struct S B)
    (hnames : self.fields.names.Nodup) (hsurvive : self.fields.Survive R)
    (hall : self.fields.unserialized = []) (s : S) :
    ∃ data, self.serialize s = .ok data ∧ ∀ j, R data.to_json j → self.deserialize j = .ok s := by
  obtain ⟨members, hmembers⟩ := hsurvive.serialize (self.row s)
  have hserialize : self.serialize s = .ok (.struct members) := by
    rw [Struct.serialize, hmembers, map_ok]
  refine ⟨.struct members, hserialize, ?_⟩
  intro j hj
  rw [Data.to_json_struct] at hj
  obtain ⟨entries, rfl, hkept⟩ := Disturbance.obj hj
  have hcarried := (Fields.serialize_written hnames hmembers).carried hsurvive hkept
    (by simp [hall])
  rw [Struct.deserialize, Fields.deserialize, Fields.visit, Fields.visit_map_of_carried hnames hcarried,
    Fields.retained_of_unserialized_nil hall, map_ok, Equiv.symm_apply_apply]

/-- A plain field survives whenever its type does. -/
theorem survive_field {A : Type} {R : Json → Json → Prop} [Serialize A] [Deserialize A]
    [Survives R A] (name : String) (a : A) : ∃ data, (field name : Field A).serialize a = .ok data ∧
      ∀ j, R data.to_json j → (field name : Field A).deserialize j = .ok a :=
  Survives.survives a

end serde
