import JieziCloud.Recovery
import JieziCloud.Types.Pagination.Forms

open chrono jiezi_cloud_core.models.share jiezi_cloud_core.models.user jiezi_cloud_core.types json
open result serde

namespace jiezi_cloud_core

section items

variable {Utc : Type} [TimeLine Utc] [uuid.Parser]

/-- A form of a user is read, as some user, when anybody has added a hash. -/
theorem exists_user_read_iff {u : User Utc} {document form : Json}
    (hdocument : to_document u = .ok document) (hrelaxed : Relaxed document form) :
    (∃ v : User Utc, deserialize form = .ok v) ↔ ∃ hash : String, Holds form "password_hash" hash := by
  constructor
  · rintro ⟨v, hread⟩
    exact ⟨v.password_hash, ((user_read_iff hdocument hrelaxed).mp hread).2⟩
  · rintro ⟨hash, hholds⟩
    exact ⟨{ u with password_hash := hash }, (user_read_iff hdocument hrelaxed).mpr ⟨rfl, hholds⟩⟩

/-- A form of a link is read unless it has been given a hash of another type. -/
theorem exists_share_link_read_iff {a : ShareLink Utc} {document form : Json}
    (hdocument : to_document a = .ok document) (hrelaxed : Relaxed document form) :
    (∃ b : ShareLink Utc, deserialize form = .ok b) ↔ Lacks form "password_hash" ∨
      ∃ hash : Option String, Holds form "password_hash" hash := by
  constructor
  · rintro ⟨b, hread⟩
    obtain ⟨hlacks, _⟩ | hholds := ((share_link_read_iff hdocument hrelaxed).mp hread).2
    · exact .inl hlacks
    · exact .inr ⟨_, hholds⟩
  · rintro (hlacks | ⟨hash, hholds⟩)
    · exact ⟨{ a with password_hash := none },
        (share_link_read_iff hdocument hrelaxed).mpr ⟨rfl, .inl ⟨hlacks, rfl⟩⟩⟩
    · exact ⟨{ a with password_hash := hash },
        (share_link_read_iff hdocument hrelaxed).mpr ⟨rfl, .inr hholds⟩⟩

/-- The document of a user is not read as it is: nobody has added a hash to it. -/
theorem user_document_unread {u v : User Utc} {document : Json}
    (hdocument : to_document u = .ok document) : deserialize document ≠ .ok v := by
  intro hread
  obtain ⟨data, hdata, hretained⟩ :=
    (User.derived Utc).deserialize_serialize (User.names Utc) (User.survive Utc) u
  rw [to_document_eq_ok hdata, Except.ok.injEq] at hdocument
  subst hdocument
  rw [User.retained, map_error] at hretained
  cases hread.symm.trans hretained

end items

variable [TextFormat recursion_limit]

section pages

variable (Utc : Type) [TimeLine Utc] [uuid.Parser]

/-- A page of users is read when everybody on it has been given a hash. -/
theorem user_pages_read_when :
    PagesReadWhen (User Utc) fun form => ∃ hash : String, Holds form "password_hash" hash :=
  pagesReadWhen (fun u => u.nestsAtMost.mono (by decide)) fun _ _ _ => exists_user_read_iff

/-- A page of links is read when no link on it has been given a hash of another
    type, so also when nothing has been added to any of them. -/
theorem share_link_pages_read_when :
    PagesReadWhen (ShareLink Utc) fun form => Lacks form "password_hash" ∨
      ∃ hash : Option String, Holds form "password_hash" hash :=
  pagesReadWhen (fun a => a.nestsAtMost.mono (by decide)) fun _ _ _ => exists_share_link_read_iff

variable {Utc}

/-- Over a channel that adds nothing, no page with a user on it is ever read. -/
theorem user_page_unread {p : PageResponse (User Utc)} (hitems : p.items ≠ []) {sent : String}
    (hsent : to_string p = .ok sent) (q : PageResponse (User Utc)) : from_str sent ≠ .ok q := by
  obtain ⟨u, rest, hcons⟩ := List.exists_cons_of_ne_nil hitems
  exact PageResponse.from_str_ne_ok hcons (fun _ _ => user_document_unread) hsent q

end pages

/-- Clients across a channel walk over listings of users and of links as over
    the listings themselves, up to the hashes, which take no part in the walk.
    A page is lost, and the walk with it, when the receiver cannot read one of
    its items: a user without a hash, as the sender writes them all, or a link
    with a hash of another type. -/
theorem recovered_walks (Utc : Type) [TimeLine Utc] [uuid.Parser] :
    (∀ (users : List (User Utc)) (req : PageRequest) (pages : List (PageResponse (User Utc))),
      RemoteWalk users req pages ↔ ∃ original, walk users req = .ok original ∧
        List.Forall₂ (PageResponse.AgreesUpTo User.AgreesWith) original pages) ∧
    (∀ (links : List (ShareLink Utc)) (req : PageRequest) (pages : List (PageResponse (ShareLink Utc))),
      RemoteWalk links req pages ↔ ∃ original, walk links req = .ok original ∧
        List.Forall₂ (PageResponse.AgreesUpTo ShareLink.AgreesWith) original pages) ∧
    PagesReadWhen (User Utc) (fun form => ∃ hash : String, Holds form "password_hash" hash) ∧
    PagesReadWhen (ShareLink Utc) (fun form => Lacks form "password_hash" ∨
      ∃ hash : Option String, Holds form "password_hash" hash) ∧
    ∀ (p : PageResponse (User Utc)) (sent : String), to_string p = .ok sent → p.items ≠ [] →
      ∀ q : PageResponse (User Utc), from_str sent ≠ .ok q :=
  ⟨remote_walk_iff_of_arrives (user_page_arrives_iff Utc) has_next_of_agreesUpTo,
    remote_walk_iff_of_arrives (share_link_page_arrives_iff Utc) has_next_of_agreesUpTo,
    user_pages_read_when Utc, share_link_pages_read_when Utc,
    fun _ _ hsent hitems => user_page_unread hitems hsent⟩

end jiezi_cloud_core
