import JieziCloud.Serde.Tagged.Survives

open json result

namespace serde

/-- The tag of a document of an internally tagged enum: a member of an object,
    or the first item of an array. -/
inductive TagOf (tag : String) : Json → Json → Prop where
  | member {entries : List (String × Json)} {name : Json} (hvalues : values tag entries = [name]) :
      TagOf tag (.obj entries) name
  | item (name : Json) (items : List Json) : TagOf tag (.arr (name :: items)) name

/-- A document has one tag at most. -/
theorem TagOf.unique {tag : String} {j name other : Json} (h : TagOf tag j name)
    (hother : TagOf tag j other) : name = other := by
  cases h with
  | member hvalues =>
    cases hother with
    | member hvalues' =>
      rw [hvalues, List.cons.injEq] at hvalues'
      exact hvalues'.1
  | item =>
    cases hother
    rfl

/-- Only the name of a variant is taken for the variant: nothing else that could
    stand under a tag is. -/
theorem Tagged.variant_eq_ok {E : Type} {self : Tagged E} {j : Json} {variant : Variant E}
    (h : self.variant j = .ok variant) : variant ∈ self.variants ∧ j = .str variant.name := by
  unfold Tagged.variant at h
  split at h
  · next name =>
    split at h
    · next found hfind =>
      cases h
      have hname := List.find?_some hfind
      rw [decide_eq_true_eq] at hname
      exact ⟨List.mem_of_find?_eq_some hfind, by rw [hname]⟩
    · cases h
  · cases h

/-- Once the tag has been seen, no other one may follow: a second member under the
    tag is an error, whatever it holds. -/
theorem Tagged.values_of_seen {E : Type} {self : Tagged E} {entries content : List (String × Json)}
    {variant : Variant E} {found : Option (Variant E) × List (String × Json)}
    (h : entries.foldlM self.visit_entry (some variant, content) = .ok found) :
    values self.tag entries = [] := by
  induction entries generalizing content with
  | nil => rfl
  | cons entry entries ih =>
    rw [List.foldlM_cons] at h
    obtain ⟨mid, hentry, hentries⟩ := bind_eq_ok_iff.mp h
    by_cases htag : entry.1 = self.tag
    · rw [visit_entry, if_pos htag] at hentry
      cases hentry
    · rw [self.visit_entry_of_ne htag, Except.ok.injEq] at hentry
      subst hentry
      rw [values_cons, if_neg htag]
      exact ih hentries

/-- What visiting the entries from a place where no tag has been seen yet can
    end in: no tag still, or the only one there is. -/
theorem Tagged.foldlM_visit_entry_cases {E : Type} {self : Tagged E} {entries content : List (String × Json)}
    {found : Option (Variant E) × List (String × Json)}
    (h : entries.foldlM self.visit_entry (none, content) = .ok found) :
    (values self.tag entries = [] ∧ found.1 = none) ∨ ∃ variant ∈ self.variants,
      values self.tag entries = [.str variant.name] ∧
        found = (some variant, content ++ entries.filter fun entry => entry.1 ≠ self.tag) := by
  induction entries generalizing content with
  | nil =>
    cases h
    exact .inl ⟨rfl, rfl⟩
  | cons entry entries ih =>
    rw [List.foldlM_cons] at h
    obtain ⟨mid, hentry, hentries⟩ := bind_eq_ok_iff.mp h
    by_cases htag : entry.1 = self.tag
    · rw [visit_entry, if_pos htag] at hentry
      obtain ⟨variant, hvariant, hmid⟩ := bind_eq_ok_iff.mp hentry
      cases hmid
      obtain ⟨hmem, hname⟩ := variant_eq_ok hvariant
      have hvalues : values self.tag (entry :: entries) = [.str variant.name] := by
        rw [values_cons, if_pos htag, values_of_seen hentries, hname]
      refine .inr ⟨variant, hmem, hvalues, ?_⟩
      have hwhole := self.foldlM_visit_entry_of_tag hvalues (self.find_variant hmem) content
      rw [List.foldlM_cons, visit_entry, if_pos htag, hvariant, ok_bind, ok_bind, hentries,
        Except.ok.injEq] at hwhole
      exact hwhole
    · rw [self.visit_entry_of_ne htag, Except.ok.injEq] at hentry
      subst hentry
      rw [values_cons, if_neg htag]
      obtain hnone | ⟨variant, hmem, hvalues, hfound⟩ := ih hentries
      · exact .inl hnone
      · refine .inr ⟨variant, hmem, hvalues, ?_⟩
        rw [hfound, List.filter_cons_of_pos (by simpa using htag), List.append_assoc, List.singleton_append]

/-- Whatever is accepted names one of the variants, which decodes the rest: an
    object by its one member under the tag, an array by its first item. -/
theorem Tagged.accepted_cases {E : Type} {self : Tagged E} {j : Json} {e : E}
    (h : self.deserialize j = .ok e) : ∃ variant ∈ self.variants, ∃ rest,
      TagOf self.tag j (.str variant.name) ∧ variant.deserialize rest = .ok e := by
  cases j using Json.casesOn with
  | obj entries =>
    rw [Tagged.deserialize] at h
    obtain ⟨found, hfound, hdispatch⟩ := bind_eq_ok_iff.mp h
    obtain ⟨_, hnone⟩ | ⟨variant, hmem, hvalues, rfl⟩ := foldlM_visit_entry_cases hfound
    · obtain ⟨seen, content⟩ := found
      cases hnone
      cases hdispatch
    · exact ⟨variant, hmem, _, .member hvalues, hdispatch⟩
  | arr items =>
    cases items with
    | nil => cases h
    | cons tag items =>
      obtain ⟨variant, hvariant, hdecode⟩ := bind_eq_ok_iff.mp h
      obtain ⟨hmem, rfl⟩ := variant_eq_ok hvariant
      exact ⟨variant, hmem, _, .item _ items, hdecode⟩
  | _ => cases h

/-- A struct variant is written under its name, and none of its own members is in
    the way of the tag. -/
theorem Tagged.tagOf_serialize_struct {B E : Type} {self : Tagged E} {variant : StructVariant E B}
    (hnames : self.tag ∉ variant.fields.names) {row : B} {data : Data}
    (h : self.serialize_struct variant row = .ok data) :
    TagOf self.tag data.to_json (.str (snake_case variant.identifier)) := by
  obtain ⟨members, hmembers, hdata⟩ := bind_eq_ok_iff.mp h
  cases hdata
  rw [Data.to_json_struct, document_cons]
  apply TagOf.member
  rw [values_cons, if_pos rfl, Fields.values_document_of_notMem hmembers hnames, Data.to_json]

/-- A unit variant is written as the tag alone. -/
theorem Tagged.tagOf_serialize_unit {E : Type} {self : Tagged E} {identifier : String} {data : Data}
    (h : self.serialize_unit identifier = .ok data) :
    TagOf self.tag data.to_json (.str (snake_case identifier)) := by
  cases h
  rw [Data.to_json_struct, document_cons, document_nil]
  apply TagOf.member
  rw [values_cons, if_pos rfl, values_nil, Data.to_json]

/-- What the variant decodes is written under the name of the variant. -/
def Variant.KeepsName {E : Type} [Serialize E] (self : Variant E) (tag : String) : Prop :=
  ∀ rest e data, self.deserialize rest = .ok e → serialize e = .ok data →
    TagOf tag data.to_json (.str self.name)

/-- What a struct variant is decoded to is encoded under the name that it was
    decoded from. -/
theorem StructVariant.keepsName {B E : Type} [Serialize E] (self : StructVariant E B)
    (tagged : Tagged E) (hserialize : ∀ row, serialize (self.make row) = tagged.serialize_struct self row)
    (hnames : tagged.tag ∉ self.fields.names) :
    (self.variant tagged.container).KeepsName tagged.tag := by
  intro rest e data hdecode hdata
  obtain ⟨row, _, rfl⟩ := map_eq_ok_iff.mp hdecode
  rw [hserialize] at hdata
  exact Tagged.tagOf_serialize_struct hnames hdata

/-- The same for a unit variant, which is decoded to one value only. -/
theorem Variant.unit_keepsName {E : Type} [Serialize E] (tagged : Tagged E) {identifier : String}
    {e : E} (hserialize : serialize e = tagged.serialize_unit identifier) :
    (Variant.unit identifier e).KeepsName tagged.tag := by
  intro rest other data hdecode hdata
  have heq : e = other := by
    simp only [Variant.unit] at hdecode
    split at hdecode <;> simp_all
  subst heq
  rw [hserialize] at hdata
  exact Tagged.tagOf_serialize_unit hdata

/-- A document that is accepted, whatever else it holds, is written again under
    the tag that it was read under. -/
theorem Tagged.tagOf_of_accepted {E : Type} [Serialize E] (self : Tagged E)
    (hvariants : ∀ variant ∈ self.variants, variant.KeepsName self.tag) {j name : Json} {e : E}
    {data : Data} (h : self.deserialize j = .ok e) (hname : TagOf self.tag j name)
    (hdata : serialize e = .ok data) : TagOf self.tag data.to_json name := by
  obtain ⟨variant, hmem, rest, htag, hdecode⟩ := accepted_cases h
  rw [hname.unique htag]
  exact hvariants variant hmem rest e data hdecode hdata

/-- Two enums under one tag accept no document in common if they have no name
    in common. -/
theorem Tagged.apart {E F : Type} (self : Tagged E) (other : Tagged F) (htag : self.tag = other.tag)
    (hnames : ∀ name ∈ self.variants.map Variant.name, name ∉ other.variants.map Variant.name)
    {j : Json} {e : E} {f : F} (he : self.deserialize j = .ok e) : other.deserialize j ≠ .ok f := by
  intro hf
  obtain ⟨variant, hmem, _, hname, _⟩ := accepted_cases he
  obtain ⟨variant', hmem', _, hname', _⟩ := accepted_cases hf
  rw [← htag] at hname'
  have heq : variant.name = variant'.name := Json.str.inj (hname.unique hname')
  exact hnames _ (List.mem_map_of_mem hmem) (heq ▸ List.mem_map_of_mem hmem')

end serde
