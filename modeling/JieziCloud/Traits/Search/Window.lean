import JieziCloud.Traits.Search
import JieziCloud.Types.Pagination.Resume

open jiezi_cloud_core.types json result serde

namespace jiezi_cloud_core.traits.search

/-- What an object gives to the four fields of a query: the query string is
    required, and the other three can be left out. -/
theorem SearchQuery.read_iff {entries : List (String × Json)} {query : SearchQuery} :
    deserialize (.obj entries) = .ok query ↔
      (field "q" : serde.Field String).Given entries query.q ∧
        ((field "page").or_default default_page).ReadAs entries query.page ∧
        ((field "per_page").or_default default_per_page).ReadAs entries query.per_page ∧
        (field "mime_filter").ReadAs entries query.mime_filter := by
  apply (SearchQuery.derived.deserialize_obj_eq_ok_iff SearchQuery.names).trans
  simp only [SearchQuery.derived, Fields.readFrom_cons, Fields.readFrom_nil, Equiv.coe_fn_mk, and_true]
  rw [Field.readAs_iff_of_required rfl]

/-- An array has to hold all four items, since the last has no default and the
    ones before it can only be left out together with all that follow. -/
theorem SearchQuery.read_arr_iff {items : List Json} {query : SearchQuery} :
    deserialize (.arr items) = .ok query ↔ ∃ q page per_page mime_filter,
      items = [q, page, per_page, mime_filter] ∧ deserialize q = .ok query.q ∧
        deserialize page = .ok query.page ∧ deserialize per_page = .ok query.per_page ∧
        deserialize mime_filter = .ok query.mime_filter := by
  constructor
  · intro h
    obtain ⟨⟨q, page, per_page, mime_filter, ⟨⟩⟩, hrow, rfl⟩ := map_eq_ok_iff.mp h
    obtain ⟨_, hnone, _⟩ | ⟨i, _, rfl, hq, hrow⟩ := Fields.visit_seq_cons_eq_ok hrow
    · cases hnone
    obtain ⟨rfl, _, hrow⟩ | ⟨j, _, rfl, hpage, hrow⟩ := Fields.visit_seq_cons_eq_ok hrow
    · cases hrow
    obtain ⟨rfl, _, hrow⟩ | ⟨k, _, rfl, hper_page, hrow⟩ := Fields.visit_seq_cons_eq_ok hrow
    · cases hrow
    obtain ⟨_, hnone, _⟩ | ⟨l, tail, rfl, hmime_filter, hrow⟩ := Fields.visit_seq_cons_eq_ok hrow
    · cases hnone
    cases tail with
    | nil => exact ⟨i, j, k, l, rfl, hq, hpage, hper_page, hmime_filter⟩
    | cons => cases hrow
  · rintro ⟨q, page, per_page, mime_filter, rfl, hq, hpage, hper_page, hmime_filter⟩
    refine map_eq_ok_iff.mpr ⟨derived.row query, ?_, derived.row.symm_apply_apply query⟩
    simp only [Fields.deserialize, Fields.visit, derived, Fields.visit_seq, field, Field.or_default, hq, hpage, hper_page,
      hmime_filter, ok_bind]
    rfl

/-- Everything the decoder accepts for a query: an object that gives the query
    string, and for each member of the others that it leaves out takes the
    value of a default page request, or an array of all four. -/
theorem SearchQuery.query_accepted_iff (j : Json) (query : SearchQuery) :
    deserialize j = .ok query ↔
      (∃ entries, j = .obj entries ∧ (field "q" : serde.Field String).Given entries query.q ∧
        ((values "page" entries = [] ∧ PageRequest.default.page = query.page) ∨
          (field "page" : serde.Field UInt32).Given entries query.page) ∧
        ((values "per_page" entries = [] ∧ PageRequest.default.per_page = query.per_page) ∨
          (field "per_page" : serde.Field UInt32).Given entries query.per_page) ∧
        ((values "mime_filter" entries = [] ∧ none = query.mime_filter) ∨
          (field "mime_filter" : serde.Field (Option String)).Given entries query.mime_filter)) ∨
      ∃ q page per_page mime_filter, j = .arr [q, page, per_page, mime_filter] ∧
        deserialize q = .ok query.q ∧ deserialize page = .ok query.page ∧
        deserialize per_page = .ok query.per_page ∧ deserialize mime_filter = .ok query.mime_filter := by
  cases j using Json.casesOn with
  | obj entries =>
    rw [SearchQuery.read_iff, Field.readAs_or_default_iff, Field.readAs_or_default_iff,
      Field.readAs_option_iff]
    simp [default_page, default_per_page, PageRequest.default]
  | arr items =>
    rw [SearchQuery.read_arr_iff]
    simp
  | _ => simp [deserialize, Struct.deserialize, Fields.deserialize, Fields.visit]

/-- The same object read as a page request: it has to name the window that the
    query takes, since a page request has no defaults. -/
theorem SearchQuery.read_as_page_request_iff {entries : List (String × Json)} {query : SearchQuery}
    (h : deserialize (.obj entries) = .ok query) (req : PageRequest) :
    deserialize (.obj entries) = .ok req ↔
      req = .new query.page query.per_page ∧ values "page" entries ≠ [] ∧
        values "per_page" entries ≠ [] := by
  obtain ⟨_, hpage, hper_page, _⟩ := SearchQuery.read_iff.mp h
  rw [PageRequest.read_iff, hpage.given_iff, hper_page.given_iff]
  constructor
  · rintro ⟨⟨hreq, hsome⟩, hreq', hsome'⟩
    refine ⟨?_, hsome, hsome'⟩
    rw [PageRequest.new, ← hreq, ← hreq']
  · rintro ⟨rfl, hsome, hsome'⟩
    exact ⟨⟨rfl, hsome⟩, rfl, hsome'⟩

/-- A query for the second page of fifty results each, which is also a request
    for that page. -/
theorem SearchQuery.second_page_read_as_page_request :
    deserialize (.obj [("q", .str "report"), ("page", .num ⟨2, by decide, by decide⟩),
      ("per_page", .num ⟨50, by decide, by decide⟩)]) = .ok (PageRequest.new 2 50) := by
  have hquery : deserialize (.obj [("q", .str "report"), ("page", .num ⟨2, by decide, by decide⟩),
      ("per_page", .num ⟨50, by decide, by decide⟩)]) =
      .ok ({ q := "report", page := 2, per_page := 50, mime_filter := none } : SearchQuery) := rfl
  exact (SearchQuery.read_as_page_request_iff hquery _).mpr
    ⟨rfl, List.cons_ne_nil _ _, List.cons_ne_nil _ _⟩

end jiezi_cloud_core.traits.search
