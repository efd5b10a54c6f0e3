import JieziCloud.Serde.Struct.Accept

open json result

namespace serde

/-- Every value serializes, and the relaxed forms of its document are decoded
    to the values that it is related to, and to no others. -/
structure Recovers {A : Type} (serialize : A → Except Error Data) (deserialize : Json → Except Error A)
    (same : A → A → Prop) : Prop where
  serializes : ∀ a, ∃ data, serialize a = .ok data
  read_iff : ∀ {a b data}, serialize a = .ok data →
    ((∃ j, Relaxed data.to_json j ∧ deserialize j = .ok b) ↔ same a b)

/-- A type that survives relaxation is recovered as it was, by every relaxed form
    of its document, of which the document itself is one. -/
theorem recovers_of_survives {A : Type} [Serialize A] [Deserialize A] [Survives Relaxed A] :
    Recovers (serialize (A := A)) deserialize Eq where
  serializes a := by
    obtain ⟨data, hdata, _⟩ := Survives.survives (R := Relaxed) a
    exact ⟨data, hdata⟩
  read_iff {a b data} hdata := by
    obtain ⟨data', hdata', hdecode⟩ := Survives.survives (R := Relaxed) a
    rw [hdata, Except.ok.injEq] at hdata'
    subst hdata'
    constructor
    · rintro ⟨j, hrelaxed, hread⟩
      rw [hdecode j hrelaxed, Except.ok.injEq] at hread
      exact hread
    · rintro rfl
      exact ⟨_, Relaxed.refl _, hdecode _ (Relaxed.refl _)⟩

/-- A traversal succeeds exactly when it does so for each of the items: one that
    fails ends the traversal, and nothing else does. -/
theorem exists_mapM_iff {A B : Type} {f : A → Except Error B} {items : List A} :
    (∃ results, items.mapM f = .ok results) ↔ ∀ a ∈ items, ∃ b, f a = .ok b := by
  induction items with
  | nil => simp [pure, Except.pure]
  | cons a items ih =>
    rw [List.forall_mem_cons, ← ih]
    constructor
    · rintro ⟨_, h⟩
      rw [List.mapM_cons] at h
      obtain ⟨head, hhead, h⟩ := bind_eq_ok_iff.mp h
      obtain ⟨tail, htail, _⟩ := bind_eq_ok_iff.mp h
      exact ⟨⟨head, hhead⟩, tail, htail⟩
    · rintro ⟨⟨head, hhead⟩, tail, htail⟩
      refine ⟨head :: tail, ?_⟩
      rw [List.mapM_cons, hhead, ok_bind, htail]
      rfl

/-- A traversal that never fails on an item never fails. -/
theorem exists_mapM {A B : Type} {f : A → Except Error B} (h : ∀ a, ∃ b, f a = .ok b)
    (items : List A) : ∃ results, items.mapM f = .ok results :=
  exists_mapM_iff.mpr fun a _ => h a

section lists

variable {A : Type} {serialize : A → Except Error Data} {deserialize : Json → Except Error A}
  {same : A → A → Prop}

/-- Reading the relaxed forms of a list recovers the lists that are related to it
    item by item, and each of them is read from some forms. The induction is on
    the items that were written. -/
theorem Recovers.mapM_read_iff (h : Recovers serialize deserialize same) {items others : List A}
    {data : List Data} (hdata : items.mapM serialize = .ok data) :
    (∃ relaxed, RelaxedItems (data.map Data.to_json) relaxed ∧
      relaxed.mapM deserialize = .ok others) ↔ List.Forall₂ same items others := by
  induction items generalizing data others with
  | nil =>
    cases hdata
    constructor
    · rintro ⟨_, ⟨⟩, hread⟩
      cases hread
      exact .nil
    · rintro ⟨⟩
      exact ⟨[], .nil, rfl⟩
  | cons a items ih =>
    rw [List.mapM_cons] at hdata
    obtain ⟨head, hhead, hdata⟩ := bind_eq_ok_iff.mp hdata
    obtain ⟨tail, htail, hdata⟩ := bind_eq_ok_iff.mp hdata
    cases hdata
    constructor
    · rintro ⟨_, hrelaxed, hread⟩
      cases hrelaxed with
      | cons hitem hitems =>
        rw [List.mapM_cons] at hread
        obtain ⟨b, hb, hread⟩ := bind_eq_ok_iff.mp hread
        obtain ⟨rest, hrest, hread⟩ := bind_eq_ok_iff.mp hread
        cases hread
        exact .cons ((h.read_iff hhead).mp ⟨_, hitem, hb⟩) ((ih htail).mp ⟨_, hitems, hrest⟩)
    · intro hsame
      cases hsame with
      | cons hitem hitems =>
        obtain ⟨j, hj, hb⟩ := (h.read_iff hhead).mpr hitem
        obtain ⟨relaxed, hrelaxed, hrest⟩ := (ih htail).mpr hitems
        refine ⟨j :: relaxed, .cons hj hrelaxed, ?_⟩
        rw [List.mapM_cons, hb, ok_bind, hrest]
        rfl

end lists

/-- A list is recovered item by item: relaxing an array neither moves its items
    nor adds any. -/
theorem Recovers.list {A : Type} [Serialize A] [Deserialize A] {same : A → A → Prop}
    (h : Recovers (serialize (A := A)) deserialize same) :
    Recovers (serialize (A := List A)) deserialize (List.Forall₂ same) where
  serializes items := by
    obtain ⟨data, hdata⟩ := exists_mapM h.serializes items
    exact ⟨.seq data, map_eq_ok_iff.mpr ⟨data, hdata, rfl⟩⟩
  read_iff hdata := by
    obtain ⟨data, hitems, rfl⟩ := map_eq_ok_iff.mp hdata
    rw [Data.to_json_seq, ← h.mapM_read_iff hitems]
    constructor
    · rintro ⟨j, hrelaxed, hread⟩
      cases hrelaxed with
      | scalar hscalar => exact hscalar.elim
      | arr hrelaxed => exact ⟨_, hrelaxed, hread⟩
    · rintro ⟨relaxed, hrelaxed, hread⟩
      exact ⟨_, .arr hrelaxed, hread⟩

/-- A value that nobody has written can be put in: it is what the field is
    without a member, or it has a scalar document. -/
def Field.Supplies {A : Type} (self : Field A) : Prop :=
  ∀ a, self.absent = .ok a ∨ ∃ j, j.IsScalar ∧ self.deserialize j = .ok a

/-- The relation on rows that the fields recover: what each written field does,
    and anything for the others. -/
inductive Fields.Recover : {B : Type} → Fields B → (B → B → Prop) → Prop
  | nil : Fields.nil.Recover fun _ _ => True
  | written {A B : Type} {head : Field A} {rest : Fields B} {same : A → A → Prop}
      {sameRest : B → B → Prop} : head.skip_serializing = false →
      Recovers head.serialize head.deserialize same → rest.Recover sameRest →
      (Fields.cons head rest).Recover fun s t => same s.1 t.1 ∧ sameRest s.2 t.2
  | unserialized {A B : Type} {head : Field A} {rest : Fields B} {sameRest : B → B → Prop} :
      head.skip_serializing = true → head.Supplies → rest.Recover sameRest →
      (Fields.cons head rest).Recover fun s t => sameRest s.2 t.2

/-- A plain field of a type that survives is recovered as it was. -/
theorem Fields.Recover.field {A B : Type} [Serialize A] [Deserialize A] [Survives Relaxed A]
    {name : String} {rest : Fields B} {sameRest : B → B → Prop} (h : rest.Recover sameRest) :
    (Fields.cons (serde.field (A := A) name) rest).Recover fun s t => s.1 = t.1 ∧ sameRest s.2 t.2 :=
  .written rfl recovers_of_survives h

/-- Every row is serialized, since the written fields are and the others are
    skipped. -/
theorem Fields.Recover.serializes {B : Type} {self : Fields B} {same : B → B → Prop}
    (h : self.Recover same) (row : B) : ∃ members, self.serialize row = .ok members := by
  induction h with
  | nil => exact ⟨[], rfl⟩
  | written hskip hhead _ ih =>
    obtain ⟨a, row⟩ := row
    obtain ⟨data, hdata⟩ := hhead.serializes a
    obtain ⟨members, hmembers⟩ := ih row
    rw [Fields.serialize, if_neg (by simp [hskip]), hdata, ok_bind, hmembers, ok_bind]
    exact ⟨_, rfl⟩
  | unserialized hskip _ _ ih =>
    obtain ⟨a, row⟩ := row
    rw [Fields.serialize, if_pos hskip]
    exact ih row

/-- Whatever row is read from an object that keeps the written members is
    related to the row that wrote them. -/
theorem Fields.Recover.same_of_read {B : Type} {self : Fields B} {same : B → B → Prop}
    (h : self.Recover same) {written entries : List (String × Json)} {s t : B}
    (hwritten : self.WrittenIn written s)
    (hkept : ∀ key value, values key written = [value] →
      ∃ found, values key entries = [found] ∧ Relaxed value found)
    (hread : self.ReadFrom entries t) : same s t := by
  induction h with
  | nil => trivial
  | written hskip hhead _ ih =>
    obtain ⟨a, s⟩ := s
    obtain ⟨b, t⟩ := t
    obtain ⟨hfield, hrest⟩ := hwritten
    rw [if_neg (by simp [hskip])] at hfield
    obtain ⟨data, hdata, hvalues⟩ := hfield
    obtain ⟨found, hfound, hrelaxed⟩ := hkept _ _ hvalues
    refine ⟨?_, ih hrest hread.2⟩
    obtain ⟨hnone, _⟩ | ⟨j, hj, hb⟩ := hread.1
    · rw [hnone] at hfound
      cases hfound
    · rw [hfound, List.cons.injEq] at hj
      obtain ⟨rfl, _⟩ := hj
      exact (hhead.read_iff hdata).mp ⟨found, hrelaxed, hb⟩
  | unserialized _ _ _ ih => exact ih hwritten.2 hread.2

/-- The fields that are not written are some of the fields, in their order. -/
theorem Fields.unserialized_sublist {B : Type} (self : Fields B) :
    self.unserialized.Sublist self.names := by
  induction self with
  | nil => exact .slnil
  | cons head rest ih =>
    rw [Fields.unserialized, Fields.names]
    split
    · exact ih.cons_cons _
    · exact ih.cons _

/-- What is read of an object depends on the members under the names of the
    fields only. -/
theorem Fields.ReadFrom.congr {B : Type} {self : Fields B} {entries others : List (String × Json)}
    (h : ∀ name ∈ self.names, values name entries = values name others) {row : B}
    (hread : self.ReadFrom entries row) : self.ReadFrom others row := by
  induction self with
  | nil => trivial
  | cons head rest ih =>
    obtain ⟨a, row⟩ := row
    simp only [Fields.names, List.forall_mem_cons] at h
    refine ⟨?_, ih h.2 hread.2⟩
    simpa only [Field.Given, h.1] using hread.1

/-- No member has another name than one of the fields, neither among those that
    were written nor among those that have been added. -/
theorem Fields.values_relaxed_of_notMem {B : Type} {self : Fields B} {row : B}
    {members : List (String × Data)} (hmembers : self.serialize row = .ok members)
    {relaxed extra : List (String × Json)} (hrelaxed : RelaxedMembers (document members) relaxed)
    (hextra : (extra.map Prod.fst).Sublist self.unserialized) {name : String}
    (hname : name ∉ self.names) : values name relaxed = [] ∧ values name extra = [] := by
  constructor
  · have hkept := hrelaxed.values name
    rw [values_document_of_notMem hmembers hname] at hkept
    cases hitems : values name relaxed with
    | nil => rfl
    | cons =>
      rw [hitems] at hkept
      cases hkept
  · rw [values_eq_nil_iff]
    intro hmem
    exact hname (self.unserialized_sublist.subset (hextra.subset hmem))

/-- Every related row can be read from some relaxed form of the object, with
    members put in for unserialized fields only. -/
theorem Fields.Recover.read_of_same {B : Type} {self : Fields B} {same : B → B → Prop}
    (h : self.Recover same) (hnames : self.names.Nodup) {s t : B} {members : List (String × Data)}
    (hmembers : self.serialize s = .ok members) (hsame : same s t) :
    ∃ relaxed extra, RelaxedMembers (document members) relaxed ∧
      (extra.map Prod.fst).Sublist self.unserialized ∧ (∀ member ∈ extra, member.2.IsScalar) ∧
      self.ReadFrom (relaxed ++ extra) t := by
  induction h generalizing members with
  | nil =>
    cases hmembers
    exact ⟨[], [], .nil, .slnil, by simp, trivial⟩
  | @written _ _ head rest _ _ hskip hhead _ ih =>
    obtain ⟨a, s⟩ := s
    obtain ⟨b, t⟩ := t
    simp only [Fields.names, List.nodup_cons] at hnames
    rw [Fields.serialize, if_neg (by simp [hskip])] at hmembers
    obtain ⟨data, hdata, hmembers⟩ := bind_eq_ok_iff.mp hmembers
    obtain ⟨tail, htail, hmembers⟩ := bind_eq_ok_iff.mp hmembers
    cases hmembers
    obtain ⟨j, hj, hb⟩ := (hhead.read_iff hdata).mpr hsame.1
    obtain ⟨relaxed, extra, hrelaxed, hextra, hscalar, hread⟩ := ih hnames.2 htail hsame.2
    obtain ⟨hnone, hnone'⟩ := values_relaxed_of_notMem htail hrelaxed hextra hnames.1
    refine ⟨(head.name, j) :: relaxed, extra, .cons hj hrelaxed, ?_, hscalar, .inr ⟨j, ?_, hb⟩, ?_⟩
    · simpa only [Fields.unserialized, hskip, Bool.false_eq_true, if_false] using hextra
    · rw [List.cons_append, values_cons, if_pos rfl, values_append, hnone, hnone', List.append_nil]
    · apply hread.congr
      intro name hname
      have hne : head.name ≠ name := fun heq => hnames.1 (heq ▸ hname)
      rw [List.cons_append, values_cons, if_neg hne]
  | @unserialized _ _ head rest _ hskip hsupplies _ ih =>
    obtain ⟨a, s⟩ := s
    obtain ⟨b, t⟩ := t
    simp only [Fields.names, List.nodup_cons] at hnames
    rw [Fields.serialize, if_pos hskip] at hmembers
    obtain ⟨relaxed, extra, hrelaxed, hextra, hscalar, hread⟩ := ih hnames.2 hmembers hsame
    obtain ⟨hnone, hnone'⟩ := values_relaxed_of_notMem hmembers hrelaxed hextra hnames.1
    rw [Fields.unserialized, if_pos hskip]
    obtain habsent | ⟨j, hj, hb⟩ := hsupplies b
    · refine ⟨relaxed, extra, hrelaxed, hextra.cons _, hscalar, .inl ⟨?_, habsent⟩, hread⟩
      rw [values_append, hnone, hnone', List.append_nil]
    · refine ⟨relaxed, (head.name, j) :: extra, hrelaxed, hextra.cons_cons _, ?_, .inr ⟨j, ?_, hb⟩, ?_⟩
      · rw [List.forall_mem_cons]
        exact ⟨hj, hscalar⟩
      · rw [values_append, values_cons, if_pos rfl, hnone, hnone', List.nil_append]
      · apply hread.congr
        intro name hname
        have hne : head.name ≠ name := fun heq => hnames.1 (heq ▸ hname)
        rw [values_append, values_append, values_cons, if_neg hne]

/-- A struct is recovered as its fields are: who relaxes its document decides
    on the fields that it leaves out, and on nothing else. -/
theorem Struct.recovers {S B : Type} (self : Struct S B) (hnames : self.fields.names.Nodup)
    {same : B → B → Prop} (h : self.fields.Recover same) :
    Recovers self.serialize self.deserialize fun s t => same (self.row s) (self.row t) where
  serializes s := by
    obtain ⟨members, hmembers⟩ := h.serializes (self.row s)
    exact ⟨.struct members, map_eq_ok_iff.mpr ⟨members, hmembers, rfl⟩⟩
  read_iff {s t data} hdata := by
    obtain ⟨members, hmembers, rfl⟩ := map_eq_ok_iff.mp hdata
    have hwritten := Fields.serialize_written hnames hmembers
    rw [Data.to_json_struct]
    constructor
    · rintro ⟨j, hrelaxed, hread⟩
      obtain ⟨entries, rfl, hkept⟩ := hrelaxed.values_singleton
      exact h.same_of_read hwritten hkept ((self.deserialize_obj_eq_ok_iff hnames).mp hread)
    · intro hsame
      obtain ⟨relaxed, extra, hrelaxed, hextra, hscalar, hread⟩ := h.read_of_same hnames hmembers hsame
      have hfresh : ∀ member ∈ extra, member.1 ∉ (document members).map Prod.fst := by
        intro member hmember
        rw [← values_eq_nil_iff]
        exact hwritten.values_unserialized _ (hextra.subset (List.mem_map_of_mem hmember))
      have hdistinct : (extra.map Prod.fst).Nodup :=
        hnames.sublist (hextra.trans self.fields.unserialized_sublist)
      exact ⟨_, .obj hrelaxed hdistinct hfresh hscalar (.refl _),
        (self.deserialize_obj_eq_ok_iff hnames).mpr hread⟩

end serde
