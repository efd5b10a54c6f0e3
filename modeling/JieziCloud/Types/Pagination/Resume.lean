import JieziCloud.Serde.Struct.Accept
import JieziCloud.Types.Pagination.Wire

open json machine result serde

namespace jiezi_cloud_core.types

/-- Whatever object gives both numbers is a page request, with any other members
    around them. -/
theorem PageRequest.read_iff {entries : List (String × Json)} {req : PageRequest} :
    deserialize (.obj entries) = .ok req ↔
      (field "page" : serde.Field UInt32).Given entries req.page ∧
        (field "per_page" : serde.Field UInt32).Given entries req.per_page := by
  apply (PageRequest.derived.deserialize_obj_eq_ok_iff (by decide)).trans
  simp only [PageRequest.derived, Fields.readFrom_cons, Fields.readFrom_nil, Equiv.coe_fn_mk, and_true]
  rw [Field.readAs_iff_of_required rfl, Field.readAs_iff_of_required rfl]

variable {T : Type} [Serialize T] [Deserialize T]

/-- Every relaxed form of the document of a page is also one of a page request,
    for the page itself. The items are skipped, whatever stands in them. -/
theorem PageResponse.read_as_request {self : PageResponse T} {document relaxed : Json}
    (hdocument : to_document self = .ok document) (hrelaxed : Relaxed document relaxed) :
    deserialize relaxed = .ok (PageRequest.new self.page self.per_page) := by
  obtain ⟨data, hdata, rfl⟩ := map_eq_ok_iff.mp hdocument
  obtain ⟨entries, _, _, rfl, _, _, _, _, hpage, hper_page⟩ := relaxed_document hdata hrelaxed
  rw [PageRequest.read_iff]
  exact ⟨hpage, hper_page⟩

/-- The client that holds nothing but the document of a page: it reads the
    request off it, and walks on from the following page. -/
def resume (xs : List T) (document : Json) :
    Except Error (Except Panic (List (PageResponse T))) := do
  let req : PageRequest ← deserialize document
  .ok do
    let page ← u32_add req.page 1
    walk xs { req with page }

/-- Whichever page a walk is interrupted after, as long as one remains, any
    relaxed form of its document is a request for the page, and enough to receive
    the remaining pages. The items need not be readable. The induction is on the
    pages before it. -/
theorem resume_spec {xs : List T} {req : PageRequest} {before rest : List (PageResponse T)}
    {last : PageResponse T} (hwalk : walk xs req = .ok (before ++ last :: rest)) (hrest : rest ≠ [])
    {document relaxed : Json} (hdocument : to_document last = .ok document)
    (hrelaxed : Relaxed document relaxed) :
    deserialize relaxed = .ok (PageRequest.new last.page last.per_page) ∧
      resume xs relaxed = .ok (.ok rest) := by
  refine ⟨PageResponse.read_as_request hdocument hrelaxed, ?_⟩
  induction before generalizing req with
  | nil =>
    obtain ⟨response, hanswer, ⟨_, heq⟩ | ⟨_, page, tail, hpage, htail, heq⟩⟩ := walk_cases hwalk
    · cases heq
      exact absurd rfl hrest
    · cases heq
      obtain ⟨hpageSame, hper_pageSame, _⟩ := answer_repeats hanswer
      rw [resume, PageResponse.read_as_request hdocument hrelaxed, hpageSame, hper_pageSame]
      simp only [PageRequest.new, hpage, ok_bind, htail]
  | cons first before ih =>
    obtain ⟨response, _, ⟨_, heq⟩ | ⟨_, page, tail, _, htail, heq⟩⟩ := walk_cases hwalk
    · cases before with
      | nil => cases heq
      | cons => cases heq
    · cases heq
      exact ih htail

/-- Two pages of three items, interrupted after the first. -/
theorem resume_second_page :
    ∃ document, to_document (PageResponse.new ["a", "b"] 3 1 2) = .ok document ∧
      deserialize document = .ok (PageRequest.new 1 2) ∧
      resume ["a", "b", "c"] document = .ok (.ok [.new ["c"] 3 2 2]) := by
  have hwalk : walk ["a", "b", "c"] { page := 1, per_page := 2 } =
      .ok ([] ++ .new ["a", "b"] 3 1 2 :: [.new ["c"] 3 2 2]) :=
    walk_next rfl (by decide) rfl (walk_last rfl (by decide))
  exact ⟨_, rfl, resume_spec hwalk (List.cons_ne_nil _ _) rfl (Relaxed.refl _)⟩

end jiezi_cloud_core.types
