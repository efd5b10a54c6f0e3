import JieziCloud.Interchange
import JieziCloud.Serde.Channel
import JieziCloud.Traits.Search
import JieziCloud.Types.Pagination.Walk

open json machine result serde

namespace jiezi_cloud_core.types

/-- The three numbers of a page, as the fields behind its items. -/
def PageResponse.numbers : Fields (UInt64 × UInt32 × UInt32 × Unit) :=
  .cons (field "total") <| .cons (field "page") <| .cons (field "per_page") .nil

theorem PageResponse.numbers_survive : numbers.Survive Relaxed :=
  ⟨survive_field _, survive_field _, survive_field _, trivial⟩

theorem PageResponse.names (T : Type) [Serialize T] [Deserialize T] :
    (derived T).fields.names.Nodup :=
  of_decide_eq_true rfl

/-- What a page is read with are the items that its document lists, decoded one
    by one. -/
theorem PageResponse.mapM_items_of_read {T : Type} [Serialize T] [Deserialize T]
    {entries : List (String × Json)} {forms : List Json} (hforms : values "items" entries = [.arr forms])
    {self : PageResponse T} (hread : deserialize (.obj entries) = .ok self) :
    forms.mapM deserialize = .ok self.items := by
  have hfrom := ((derived T).deserialize_obj_eq_ok_iff (names T)).mp hread
  obtain ⟨⟨hnone, _⟩ | ⟨found, hfound, hdecode⟩, _⟩ := hfrom
  · cases hforms.symm.trans hnone
  · cases hforms.symm.trans hfound
    exact hdecode

/-- What is left of a page in every relaxed form of its document, whatever has
    become of its items: the forms of the items under their name, and the three
    numbers as they were written. -/
theorem PageResponse.relaxed_document {T : Type} [Serialize T] [Deserialize T]
    {self : PageResponse T} {data : Data} (hdata : serialize self = .ok data) {j : Json}
    (hrelaxed : Relaxed data.to_json j) :
    ∃ entries items forms, j = .obj entries ∧ self.items.mapM serialize = .ok items ∧
      RelaxedItems (items.map Data.to_json) forms ∧ values "items" entries = [.arr forms] ∧
      (field "total" : serde.Field UInt64).Given entries self.total ∧
      (field "page" : serde.Field UInt32).Given entries self.page ∧
      (field "per_page" : serde.Field UInt32).Given entries self.per_page := by
  obtain ⟨members, hmembers, rfl⟩ := map_eq_ok_iff.mp hdata
  obtain ⟨hitems, hrest⟩ := Fields.serialize_written (names T) hmembers
  rw [Data.to_json_struct] at hrelaxed
  obtain ⟨entries, rfl, hkept⟩ := hrelaxed.values_singleton
  obtain ⟨listed, hlisted, hvalues⟩ := hitems
  obtain ⟨items, hmapM, rfl⟩ := map_eq_ok_iff.mp hlisted
  obtain ⟨found, hfound, hitemsRelaxed⟩ := hkept _ _ hvalues
  rw [Data.to_json_seq] at hitemsRelaxed
  have hgiven : numbers.Kept entries (self.total, self.page, self.per_page, ()) :=
    Fields.WrittenIn.kept hrest numbers_survive hkept
  simp only [numbers, Fields.kept_field, Fields.kept_nil, and_true] at hgiven
  cases hitemsRelaxed with
  | scalar hscalar => exact hscalar.elim
  | arr hforms => exact ⟨entries, items, _, rfl, hmapM, hforms, hfound, hgiven⟩

/-- Around its items a page has two levels of its own. -/
theorem PageResponse.nestsAtMost_iff_of_serialize {T : Type} [Serialize T] [Deserialize T]
    {self : PageResponse T} {data : Data} (hdata : serialize self = .ok data) (bound : Nat) :
    NestsAtMost serialize (bound + 2) self ↔ ∀ a ∈ self.items, NestsAtMost serialize bound a := by
  obtain ⟨_, items, _, _, hitems, _⟩ := relaxed_document hdata (Relaxed.refl _)
  rw [nestsAtMost_iff_of_ok hdata, ← list_nestsAtMost_iff hitems]
  apply ((derived T).depth_le_iff hdata).trans
  simp [derived]

/-- The same for items that are known to serialize. -/
theorem PageResponse.nestsAtMost_iff {R : Json → Json → Prop} {T : Type} [Serialize T] [Deserialize T]
    [Disturbance R] [Survives R T] (self : PageResponse T) (bound : Nat) :
    NestsAtMost serialize (bound + 2) self ↔ ∀ a ∈ self.items, NestsAtMost serialize bound a := by
  obtain ⟨data, hdata, _⟩ := Survives.survives (R := R) self
  exact nestsAtMost_iff_of_serialize hdata bound

/-- Pages of items that leave room for two more levels are within the limit. -/
theorem PageResponse.nestsAtMost_of_items {T : Type} [Serialize T] [Deserialize T]
    [Survives Relaxed T] (h : ∀ a : T, NestsAtMost serialize 125 a) (self : PageResponse T) :
    NestsAtMost serialize recursion_limit self :=
  (self.nestsAtMost_iff (R := Relaxed) 125).mpr fun a _ => h a

section single

variable {T : Type} [Serialize T] [Deserialize T]

/-- A page of one item. -/
def PageResponse.single (a : T) : PageResponse T := .new [a] 1 1 1

end single

section channel

variable [TextFormat recursion_limit] {T : Type} [Serialize T] [Deserialize T]

/-- One exchange over a channel: the request arrives, is answered as it was
    read, and the answer travels back. -/
def Exchange (xs : List T) (req : PageRequest) (response : PageResponse T) : Prop :=
  ∃ received answered, Arrives req received ∧ answer xs received = .ok answered ∧
    Arrives answered response

/-- A client across a channel that asks for the following page as long as there
    is one, with the pages it receives. -/
inductive RemoteWalk (xs : List T) : PageRequest → List (PageResponse T) → Prop where
  | last {req : PageRequest} {response : PageResponse T} (hexchange : Exchange xs req response)
      (hnext : ¬response.has_next = true) : RemoteWalk xs req [response]
  | next {req : PageRequest} {response : PageResponse T} {page : UInt32}
      {rest : List (PageResponse T)} (hexchange : Exchange xs req response)
      (hnext : response.has_next = true) (hpage : u32_add req.page 1 = .ok page)
      (hrest : RemoteWalk xs { req with page } rest) : RemoteWalk xs req (response :: rest)

/-- Requests arrive as they were sent: they are flat, and nothing in them is left
    to the channel. -/
theorem request_arrives_iff (req received : PageRequest) : Arrives req received ↔ req = received :=
  arrives_iff_of_nestsAtMost recovers_of_survives (req.nestsAtMost.mono (by decide)) received

section pages

variable {same : PageResponse T → PageResponse T → Prop}
  (harrives : ∀ p q : PageResponse T, Arrives p q ↔ same p q)

include harrives

/-- An exchange comes to the answer, as far as pages arrive. -/
theorem exchange_iff (xs : List T) (req : PageRequest) (response : PageResponse T) :
    Exchange xs req response ↔ ∃ answered, answer xs req = .ok answered ∧ same answered response := by
  constructor
  · rintro ⟨received, answered, hreceived, hanswer, hresponse⟩
    rw [request_arrives_iff] at hreceived
    subst hreceived
    exact ⟨answered, hanswer, (harrives answered response).mp hresponse⟩
  · rintro ⟨answered, hanswer, hsame⟩
    exact ⟨req, answered, (request_arrives_iff req req).mpr rfl, hanswer,
      (harrives answered response).mpr hsame⟩

/-- The walk of a client across a channel is the walk over the listing itself,
    page by page as far as pages arrive, when what becomes of them on the way
    has no part in the arithmetic. -/
theorem remote_walk_iff_of_arrives (hnext : ∀ {p q}, same p q → q.has_next = p.has_next)
    (xs : List T) (req : PageRequest) (pages : List (PageResponse T)) :
    RemoteWalk xs req pages ↔
      ∃ original, walk xs req = .ok original ∧ List.Forall₂ same original pages := by
  constructor
  · intro h
    induction h with
    | last hexchange hlast =>
      obtain ⟨answered, hanswer, hsame⟩ := (exchange_iff harrives xs _ _).mp hexchange
      rw [hnext hsame] at hlast
      exact ⟨[answered], walk_last hanswer hlast, .cons hsame .nil⟩
    | next hexchange hmore hpage _ ih =>
      obtain ⟨answered, hanswer, hsame⟩ := (exchange_iff harrives xs _ _).mp hexchange
      obtain ⟨original, hwalk, hrest⟩ := ih
      rw [hnext hsame] at hmore
      exact ⟨answered :: original, walk_next hanswer hmore hpage hwalk, .cons hsame hrest⟩
  · rintro ⟨original, hwalk, hsame⟩
    induction hsame generalizing req with
    | nil =>
      obtain ⟨_, _, ⟨_, heq⟩ | ⟨_, _, _, _, _, heq⟩⟩ := walk_cases hwalk
      · cases heq
      · cases heq
    | cons hfirst hrest ih =>
      obtain ⟨answered, hanswer, ⟨hlast, heq⟩ | ⟨hmore, page, _, hpage, htail, heq⟩⟩ :=
        walk_cases hwalk
      · cases heq
        cases hrest
        rw [← hnext hfirst] at hlast
        exact .last ((exchange_iff harrives xs _ _).mpr ⟨_, hanswer, hfirst⟩) hlast
      · cases heq
        rw [← hnext hfirst] at hmore
        exact .next ((exchange_iff harrives xs _ _).mpr ⟨_, hanswer, hfirst⟩) hmore hpage
          (ih _ htail)

end pages

/-- The walk of a client across any such channel is the walk over the listing
    itself: the channel can neither change a page nor add one nor lose one. -/
theorem remote_walk_iff [Survives Relaxed T] (hdepth : ∀ a : T, NestsAtMost serialize 125 a)
    (xs : List T) (req : PageRequest) (pages : List (PageResponse T)) :
    RemoteWalk xs req pages ↔ walk xs req = .ok pages := by
  have hpages := PageResponse.nestsAtMost_of_items hdepth
  have harrives : ∀ p q : PageResponse T, Arrives p q ↔ p = q :=
    fun p => arrives_iff_of_nestsAtMost recovers_of_survives (hpages p)
  rw [remote_walk_iff_of_arrives harrives (fun h => congrArg _ h.symm)]
  simp only [List.forall₂_eq_eq_eq, exists_eq_right]

end channel

/-- The client of a listing of three names receives its two pages, over any
    channel that keeps what it is sent. -/
theorem remote_walk_of_names :
    @RemoteWalk (compact recursion_limit) String _ _ ["a", "b", "c"] { page := 1, per_page := 2 }
      [.new ["a", "b"] 3 1 2, .new ["c"] 3 2 2] := by
  let _ := compact recursion_limit
  have hwalk : walk ["a", "b", "c"] { page := 1, per_page := 2 } =
      .ok [.new ["a", "b"] 3 1 2, .new ["c"] 3 2 2] :=
    walk_next rfl (by decide) rfl (walk_last rfl (by decide))
  exact (remote_walk_iff (fun name => Flat.nestsAtMost name 125) _ _ _).mpr hwalk

end jiezi_cloud_core.types
