import JieziCloud.Types.Pagination.Wire

open json result serde

namespace jiezi_cloud_core.types

/-- Every relaxed form of the documents of a list is one of the documents of its
    items, as many of them as there are items. -/
theorem forms_of_items {T : Type} [Serialize T] {items : List T} {data : List Data}
    (hdata : items.mapM serialize = .ok data) {forms : List Json}
    (h : RelaxedItems (data.map Data.to_json) forms) : forms.length = items.length ∧
      ∀ form ∈ forms, ∃ a ∈ items, ∃ document, to_document a = .ok document ∧
        Relaxed document form := by
  induction items generalizing data forms with
  | nil =>
    cases hdata
    cases h
    exact ⟨rfl, List.forall_mem_nil _⟩
  | cons a items ih =>
    rw [List.mapM_cons] at hdata
    obtain ⟨head, hhead, hdata⟩ := bind_eq_ok_iff.mp hdata
    obtain ⟨tail, htail, hdata⟩ := bind_eq_ok_iff.mp hdata
    cases hdata
    cases h with
    | cons hform hforms =>
      obtain ⟨hlength, hrest⟩ := ih htail hforms
      rw [List.length_cons, List.length_cons, hlength, List.forall_mem_cons]
      refine ⟨rfl, ⟨a, List.mem_cons_self, _, to_document_eq_ok hhead, hform⟩, ?_⟩
      intro form hmem
      obtain ⟨b, hb, hfound⟩ := hrest form hmem
      exact ⟨b, List.mem_cons_of_mem _ hb, hfound⟩

/-- Once a document gives a page its three numbers, the page is read exactly
    when each form of an item is. -/
theorem PageResponse.exists_deserialize_iff {T : Type} [Serialize T] [Deserialize T]
    {entries : List (String × Json)} {forms : List Json} (hforms : values "items" entries = [.arr forms])
    {total : UInt64} {page per_page : UInt32}
    (htotal : (field "total" : serde.Field UInt64).Given entries total)
    (hpage : (field "page" : serde.Field UInt32).Given entries page)
    (hper_page : (field "per_page" : serde.Field UInt32).Given entries per_page) :
    (∃ q : PageResponse T, deserialize (.obj entries) = .ok q) ↔
      ∀ form ∈ forms, ∃ a : T, deserialize form = .ok a := by
  rw [← exists_mapM_iff]
  constructor
  · rintro ⟨q, hread⟩
    exact ⟨q.items, mapM_items_of_read hforms hread⟩
  · rintro ⟨items, hitems⟩
    refine ⟨{ items, total, page, per_page }, ?_⟩
    apply ((derived T).deserialize_obj_eq_ok_iff (names T)).mpr
    exact ⟨.inr ⟨_, hforms, hitems⟩, .inr htotal, .inr hpage, .inr hper_page, trivial⟩

/-- In its own document a page lists the documents of its items. -/
theorem PageResponse.document_items {T : Type} [Serialize T] [Deserialize T] {self : PageResponse T}
    {data : Data} (hdata : serialize self = .ok data) :
    ∃ entries items, data.to_json = .obj entries ∧ self.items.mapM serialize = .ok items ∧
      values "items" entries = [.arr (items.map Data.to_json)] := by
  obtain ⟨members, hmembers, rfl⟩ := map_eq_ok_iff.mp hdata
  obtain ⟨⟨listed, hlisted, hvalues⟩, _⟩ := Fields.serialize_written (names T) hmembers
  obtain ⟨items, hitems, rfl⟩ := map_eq_ok_iff.mp hlisted
  rw [Data.to_json_seq] at hvalues
  exact ⟨_, items, Data.to_json_struct members, hitems, hvalues⟩

section channel

variable [TextFormat recursion_limit]

/-- A page whose first item is not read from its own document is not read from
    its own text either. -/
theorem PageResponse.from_str_ne_ok {T : Type} [Serialize T] [Deserialize T] {p : PageResponse T}
    {a : T} {rest : List T} (hitems : p.items = a :: rest)
    (hunread : ∀ document (b : T), to_document a = .ok document → deserialize document ≠ .ok b)
    {sent : String} (hsent : to_string p = .ok sent) (q : PageResponse T) : from_str sent ≠ .ok q := by
  intro hread
  obtain ⟨written, hwritten, rfl⟩ := map_eq_ok_iff.mp hsent
  obtain ⟨data, hdata, rfl⟩ := map_eq_ok_iff.mp hwritten
  obtain ⟨_, hdecode⟩ := from_str_eq_ok_of_spells (TextFormat.spells_write _) hread
  obtain ⟨entries, items, hentries, hlisted, hvalues⟩ := document_items hdata
  rw [hitems, List.mapM_cons] at hlisted
  obtain ⟨head, hhead, hlisted⟩ := bind_eq_ok_iff.mp hlisted
  obtain ⟨tail, _, hlisted⟩ := bind_eq_ok_iff.mp hlisted
  cases hlisted
  rw [hentries] at hdecode
  have hforms := mapM_items_of_read hvalues hdecode
  obtain ⟨b, hb⟩ := exists_mapM_iff.mp ⟨_, hforms⟩ _ List.mem_cons_self
  exact hunread _ b (to_document_eq_ok hhead) hb

/-- The forms in which the items stand in the text of a page. -/
def ItemForms (text : String) (forms : List Json) : Prop :=
  ∃ entries, TextFormat.Spells recursion_limit text (.obj entries) ∧
    values "items" entries = [.arr forms]

/-- A receiver reads what the text of a page has become exactly when the forms
    of all its items are such that it `reads` them. -/
def PagesReadWhen (T : Type) [Serialize T] [Deserialize T] (reads : Json → Prop) : Prop :=
  ∀ (p : PageResponse T) (sent received : String), to_string p = .ok sent → Conveys sent received →
    ∃ forms, ItemForms received forms ∧ forms.length = p.items.length ∧
      ((∃ q : PageResponse T, from_str received = .ok q) ↔ ∀ form ∈ forms, reads form)

/-- One item that is not read is enough to lose the page with all its items,
    and nothing else is. -/
theorem pagesReadWhen {T : Type} [Serialize T] [Deserialize T] {reads : Json → Prop}
    (hdepth : ∀ a : T, NestsAtMost serialize 125 a)
    (hreads : ∀ (a : T) document form, to_document a = .ok document → Relaxed document form →
      ((∃ b : T, deserialize form = .ok b) ↔ reads form)) : PagesReadWhen T reads := by
  rintro p sent received hsent ⟨document, relaxed, hspells, hrelaxed, hreceived⟩
  obtain ⟨written, hwritten, rfl⟩ := map_eq_ok_iff.mp hsent
  obtain ⟨data, hdata, rfl⟩ := map_eq_ok_iff.mp hwritten
  have hle : data.to_json.depth ≤ recursion_limit :=
    (p.nestsAtMost_iff_of_serialize hdata 125).mpr (fun a _ => hdepth a) data hdata
  have heq : document = data.to_json :=
    TextFormat.eq_of_spells (TextFormat.spells_write _) hspells hle
  subst heq
  obtain ⟨entries, items, forms, rfl, hitems, hrelaxedItems, hvalues, htotal, hpage, hper_page⟩ :=
    PageResponse.relaxed_document hdata hrelaxed
  obtain ⟨hlength, hfound⟩ := forms_of_items hitems hrelaxedItems
  refine ⟨forms, ⟨entries, hreceived, hvalues⟩, hlength, ?_⟩
  rw [← hrelaxed.depth_eq] at hle
  rw [from_str_of_spells hreceived hle,
    PageResponse.exists_deserialize_iff hvalues htotal hpage hper_page]
  constructor
  · intro hall form hmem
    obtain ⟨a, _, document, hdocument, hform⟩ := hfound form hmem
    exact (hreads a document form hdocument hform).mp (hall form hmem)
  · intro hall form hmem
    obtain ⟨a, _, document, hdocument, hform⟩ := hfound form hmem
    exact (hreads a document form hdocument hform).mpr (hall form hmem)

end channel

end jiezi_cloud_core.types
