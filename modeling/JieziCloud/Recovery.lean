import JieziCloud.Redaction
import JieziCloud.Types.Pagination.Wire

open chrono jiezi_cloud_core.models.share jiezi_cloud_core.models.user jiezi_cloud_core.types json
open result serde

namespace jiezi_cloud_core

section recovers

variable (Utc : Type) [TimeLine Utc] [uuid.Parser]

/-- From the document of a user, users with any hash can be made by adding one,
    and nothing else about the user can be changed. -/
theorem user_recovers : Recovers (serialize (A := User Utc)) deserialize User.AgreesWith := by
  have hsupplies : (field "password_hash" : serde.Field String).unserialized.Supplies := by
    intro hash
    exact .inr ⟨.str hash, trivial, rfl⟩
  have hfields := (User.derived Utc).recovers (User.names Utc) (.field <| .field <| .field <|
    .unserialized rfl hsupplies <| .field <| .field <| .field <| .field <| .field <| .field <|
    .field <| .field .nil)
  refine ⟨hfields.serializes, ?_⟩
  intro u v data hdata
  apply (hfields.read_iff hdata).trans
  obtain ⟨⟩ := u
  obtain ⟨⟩ := v
  simp [User.AgreesWith, User.derived]

/-- The same for links. A link is also read without any hash, and any hash at all
    can be added to its document. -/
theorem share_link_recovers :
    Recovers (serialize (A := ShareLink Utc)) deserialize ShareLink.AgreesWith := by
  have hsupplies : (field "password_hash" : serde.Field (Option String)).unserialized.Supplies := by
    intro hash
    cases hash with
    | none => exact .inl rfl
    | some hash => exact .inr ⟨.str hash, trivial, rfl⟩
  have hfields := (ShareLink.derived Utc).recovers (ShareLink.names Utc) (.field <| .field <|
    .field <| .field <| .unserialized rfl hsupplies <| .field <| .field <| .field <| .field .nil)
  refine ⟨hfields.serializes, ?_⟩
  intro a b data hdata
  apply (hfields.read_iff hdata).trans
  obtain ⟨⟩ := a
  obtain ⟨⟩ := b
  simp [ShareLink.AgreesWith, ShareLink.derived]

end recovers

/-- A page is recovered item by item, and its three numbers as they were. -/
theorem page_recovers {T : Type} [Serialize T] [Deserialize T] {same : T → T → Prop}
    (h : Recovers (serialize (A := T)) deserialize same) :
    Recovers (serialize (A := PageResponse T)) deserialize (PageResponse.AgreesUpTo same) := by
  have hfields := (PageResponse.derived T).recovers (of_decide_eq_true rfl)
    (.written rfl h.list <| .field <| .field <| .field .nil)
  refine ⟨hfields.serializes, ?_⟩
  intro p q data hdata
  apply (hfields.read_iff hdata).trans
  simp only [PageResponse.AgreesUpTo, PageResponse.derived, Equiv.coe_fn_mk, and_true]
  tauto

/-- The items have no part in the arithmetic of a page. -/
theorem has_next_of_agreesUpTo {T : Type} {same : T → T → Prop} {p q : PageResponse T}
    (h : p.AgreesUpTo same q) : q.has_next = p.has_next := by
  obtain ⟨htotal, hpage, hper_page, _⟩ := h
  rw [PageResponse.has_next, PageResponse.has_next, PageResponse.total_pages, PageResponse.total_pages,
    htotal, hpage, hper_page]

section gained

variable {Utc : Type} [TimeLine Utc] [uuid.Parser]

/-- A relaxed form of a user is read once a hash has been added to it, and then
    as the user with this hash. -/
theorem user_read_iff {u v : User Utc} {document relaxed : Json}
    (hdocument : to_document u = .ok document) (hrelaxed : Relaxed document relaxed) :
    deserialize relaxed = .ok v ↔ u.AgreesWith v ∧ Holds relaxed "password_hash" v.password_hash := by
  obtain ⟨data, hdata, rfl⟩ := map_eq_ok_iff.mp hdocument
  have hsurvive : (User.derived Utc).fields.Survive Relaxed :=
    ⟨survive_field _, survive_field _, survive_field _, survive_field "password_hash",
      survive_field _, survive_field _, survive_field _, survive_field _, survive_field _,
      survive_field _, survive_field _, survive_field _, trivial⟩
  obtain ⟨entries, rfl, hkept⟩ := (User.derived Utc).kept (User.names Utc) hsurvive hdata hrelaxed
  simp only [User.derived, Fields.kept_field, Fields.kept_unserialized, Equiv.coe_fn_mk,
    Fields.kept_nil, and_true] at hkept
  obtain ⟨hid, husername, hemail, hrole, hcreated_at, hupdated_at, his_active, hdisplay_name,
    havatar_url, hstorage_quota, hstorage_used⟩ := hkept
  have hhash : ((field "password_hash" : serde.Field String).unserialized).ReadAs entries v.password_hash ↔
      (field "password_hash" : serde.Field String).Given entries v.password_hash :=
    Field.readAs_iff_of_required rfl entries v.password_hash
  apply ((User.derived Utc).deserialize_obj_eq_ok_iff (User.names Utc)).trans
  simp only [User.derived, Fields.readFrom_cons, Fields.readFrom_nil, Equiv.coe_fn_mk, and_true,
    hid.readAs_iff, husername.readAs_iff, hemail.readAs_iff, hrole.readAs_iff,
    hcreated_at.readAs_iff, hupdated_at.readAs_iff, his_active.readAs_iff, hdisplay_name.readAs_iff,
    havatar_url.readAs_iff, hstorage_quota.readAs_iff, hstorage_used.readAs_iff, hhash, holds_obj_iff]
  obtain ⟨⟩ := u
  obtain ⟨⟩ := v
  constructor
  · rintro ⟨rfl, rfl, rfl, hgiven, rfl, rfl, rfl, rfl, rfl, rfl, rfl, rfl⟩
    exact ⟨rfl, hgiven⟩
  · rintro ⟨⟨⟩, hgiven⟩
    exact ⟨rfl, rfl, rfl, hgiven, rfl, rfl, rfl, rfl, rfl, rfl, rfl, rfl⟩

/-- A relaxed form of a link is read in any case, with the password that has
    been added to it, or else with none. -/
theorem share_link_read_iff {a b : ShareLink Utc} {document relaxed : Json}
    (hdocument : to_document a = .ok document) (hrelaxed : Relaxed document relaxed) :
    deserialize relaxed = .ok b ↔ a.AgreesWith b ∧
      ((Lacks relaxed "password_hash" ∧ none = b.password_hash) ∨
        Holds relaxed "password_hash" b.password_hash) := by
  obtain ⟨data, hdata, rfl⟩ := map_eq_ok_iff.mp hdocument
  have hsurvive : (ShareLink.derived Utc).fields.Survive Relaxed :=
    ⟨survive_field _, survive_field _, survive_field _, survive_field _,
      survive_field (A := Option String) "password_hash", survive_field _, survive_field _,
      survive_field _, survive_field _, trivial⟩
  obtain ⟨entries, rfl, hkept⟩ :=
    (ShareLink.derived Utc).kept (ShareLink.names Utc) hsurvive hdata hrelaxed
  simp only [ShareLink.derived, Fields.kept_field, Fields.kept_unserialized, Equiv.coe_fn_mk,
    Fields.kept_nil, and_true] at hkept
  obtain ⟨hid, hfile_id, hcreated_by, haccess, hexpires_at, hdownload_limit, hdownload_count,
    hcreated_at⟩ := hkept
  have hhash : ((field "password_hash" : serde.Field (Option String)).unserialized).ReadAs entries
      b.password_hash ↔ (values "password_hash" entries = [] ∧ none = b.password_hash) ∨
        (field "password_hash" : serde.Field (Option String)).Given entries b.password_hash :=
    Field.readAs_option_iff
  apply ((ShareLink.derived Utc).deserialize_obj_eq_ok_iff (ShareLink.names Utc)).trans
  simp only [ShareLink.derived, Fields.readFrom_cons, Fields.readFrom_nil, Equiv.coe_fn_mk, and_true,
    hid.readAs_iff, hfile_id.readAs_iff, hcreated_by.readAs_iff, haccess.readAs_iff,
    hexpires_at.readAs_iff, hdownload_limit.readAs_iff, hdownload_count.readAs_iff,
    hcreated_at.readAs_iff, hhash, holds_obj_iff, lacks_obj_iff]
  obtain ⟨⟩ := a
  obtain ⟨⟩ := b
  constructor
  · rintro ⟨rfl, rfl, rfl, rfl, hread, rfl, rfl, rfl, rfl⟩
    exact ⟨rfl, hread⟩
  · rintro ⟨⟨⟩, hread⟩
    exact ⟨rfl, rfl, rfl, rfl, hread, rfl, rfl, rfl, rfl⟩

/-- What a relaxed form of a user or of a link is read as: the fields are those
    that were written, and the hash is the one that the form has gained. -/
theorem hashes_gained :
    (∀ (u v : User Utc) (document relaxed : Json), to_document u = .ok document →
      Relaxed document relaxed → (deserialize relaxed = .ok v ↔
        u.AgreesWith v ∧ Holds relaxed "password_hash" v.password_hash)) ∧
    ∀ (a b : ShareLink Utc) (document relaxed : Json), to_document a = .ok document →
      Relaxed document relaxed → (deserialize relaxed = .ok b ↔ a.AgreesWith b ∧
        ((Lacks relaxed "password_hash" ∧ none = b.password_hash) ∨
          Holds relaxed "password_hash" b.password_hash)) :=
  ⟨fun _ _ _ _ => user_read_iff, fun _ _ _ _ => share_link_read_iff⟩

end gained

variable [TextFormat recursion_limit]

section pages

variable (Utc : Type) [TimeLine Utc] [uuid.Parser]

/-- Users are flat, so a page of them is never refused for its nesting. -/
theorem user_page_arrives_iff (p q : PageResponse (User Utc)) :
    Arrives p q ↔ p.AgreesUpTo User.AgreesWith q :=
  arrives_iff_of_nestsAtMost (page_recovers (user_recovers Utc))
    ((page_nestsAtMost User.nestsAtMost p).mono (by decide)) q

theorem share_link_page_arrives_iff (p q : PageResponse (ShareLink Utc)) :
    Arrives p q ↔ p.AgreesUpTo ShareLink.AgreesWith q :=
  arrives_iff_of_nestsAtMost (page_recovers (share_link_recovers Utc))
    ((page_nestsAtMost ShareLink.nestsAtMost p).mono (by decide)) q

end pages

/-- What users, links and pages of them can arrive as is decided by the sender
    up to the hashes, and by the channel for these. -/
theorem recovery (Utc : Type) [TimeLine Utc] [uuid.Parser] :
    (∀ u v : User Utc, Arrives u v ↔ u.AgreesWith v) ∧
    (∀ a b : ShareLink Utc, Arrives a b ↔ a.AgreesWith b) ∧
    (∀ p q : PageResponse (User Utc), Arrives p q ↔ p.AgreesUpTo User.AgreesWith q) ∧
    ∀ p q : PageResponse (ShareLink Utc), Arrives p q ↔ p.AgreesUpTo ShareLink.AgreesWith q := by
  refine ⟨?_, ?_, user_page_arrives_iff Utc, share_link_page_arrives_iff Utc⟩
  · intro u
    exact arrives_iff_of_nestsAtMost (user_recovers Utc) (u.nestsAtMost.mono (by decide))
  · intro a
    exact arrives_iff_of_nestsAtMost (share_link_recovers Utc) (a.nestsAtMost.mono (by decide))

end jiezi_cloud_core
