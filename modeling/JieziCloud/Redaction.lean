import JieziCloud.Models.Share
import JieziCloud.Models.User
import JieziCloud.Serde.Disclosure
import JieziCloud.Types.Pagination

open chrono jiezi_cloud_core.models.share jiezi_cloud_core.models.user jiezi_cloud_core.types json
open result serde

namespace jiezi_cloud_core

/-- The users agree on every field but the hash. -/
def models.user.User.AgreesWith {Utc : Type} (self other : User Utc) : Prop :=
  { self with password_hash := other.password_hash } = other

/-- The links agree on every field but the hash. -/
def models.share.ShareLink.AgreesWith {Utc : Type} (self other : ShareLink Utc) : Prop :=
  { self with password_hash := other.password_hash } = other

/-- The pages agree on their position, and on their items as far as `same`
    tells items apart. -/
def types.PageResponse.AgreesUpTo {T : Type} (same : T → T → Prop) (self other : PageResponse T) :
    Prop :=
  self.total = other.total ∧ self.page = other.page ∧ self.per_page = other.per_page ∧
    List.Forall₂ same self.items other.items

section users

variable (Utc : Type) [TimeLine Utc] [uuid.Parser]

/-- The document of a user tells everything about the user but the hash. -/
theorem user_discloses : Discloses (serialize (A := User Utc)) User.AgreesWith := by
  have hfields := (User.derived Utc).discloses (.field <| .field <| .field <| .unserialized rfl <|
    .field <| .field <| .field <| .field <| .field <| .field <| .field <| .field .nil)
  refine ⟨hfields.serializes, ?_⟩
  intro u v x y hx hy
  rw [hfields.document_eq_iff hx hy]
  obtain ⟨⟩ := u
  obtain ⟨⟩ := v
  simp [User.AgreesWith, User.derived]

/-- The document of a link tells everything about the link but the hash. -/
theorem share_link_discloses : Discloses (serialize (A := ShareLink Utc)) ShareLink.AgreesWith := by
  have hfields := (ShareLink.derived Utc).discloses (.field <| .field <| .field <| .field <|
    .unserialized rfl <| .field <| .field <| .field <| .field .nil)
  refine ⟨hfields.serializes, ?_⟩
  intro a b x y hx hy
  rw [hfields.document_eq_iff hx hy]
  obtain ⟨⟩ := a
  obtain ⟨⟩ := b
  simp [ShareLink.AgreesWith, ShareLink.derived]

end users

section pages

variable {T : Type} [Serialize T] [Deserialize T]

/-- The document of a page tells of each item what the document of the item tells,
    and besides the total, the page and the size. -/
theorem page_discloses {same : T → T → Prop} (h : Discloses (serialize (A := T)) same) :
    Discloses (serialize (A := PageResponse T)) (PageResponse.AgreesUpTo same) := by
  have hfields := (PageResponse.derived T).discloses
    (.written rfl h.list <| .field <| .field <| .field .nil)
  refine ⟨hfields.serializes, ?_⟩
  intro p q x y hx hy
  rw [hfields.document_eq_iff hx hy]
  simp only [PageResponse.AgreesUpTo, PageResponse.derived, Equiv.coe_fn_mk, and_true]
  tauto

/-- The two levels around an item are the page and the list of its items. -/
theorem page_nestsAtMost {bound : Nat} (h : ∀ a : T, NestsAtMost serialize bound a)
    (self : PageResponse T) : NestsAtMost serialize (bound + 2) self := by
  apply (PageResponse.derived T).nestsAtMost
  have hitems : NestsAtMost serialize (bound + 1) self.items := by
    apply list_nestsAtMost
    intro a _
    exact h a
  simp [PageResponse.derived, hitems]

end pages

variable [TextFormat recursion_limit]

/-- Every value has a text, and two values have the same text exactly when they
    are related. -/
def EncodesUpTo (A : Type) [Serialize A] (same : A → A → Prop) : Prop :=
  ∀ a b : A, ∃ x y, to_string a = .ok x ∧ to_string b = .ok y ∧ (x = y ↔ same a b)

/-- What documents tell apart texts tell apart as well, as long as the documents
    are not too deep to be read back. -/
theorem encodesUpTo_of_discloses {A : Type} [Serialize A] {same : A → A → Prop}
    (h : Discloses (serialize (A := A)) same)
    (hdepth : ∀ a : A, NestsAtMost serialize recursion_limit a) : EncodesUpTo A same := by
  intro a b
  obtain ⟨x, hx⟩ := h.serializes a
  obtain ⟨y, hy⟩ := h.serializes b
  refine ⟨_, _, to_string_eq_ok hx, to_string_eq_ok hy, ?_⟩
  rw [← h.document_eq_iff hx hy]
  constructor
  · intro htext
    exact TextFormat.write_injective (hdepth a x hx) (hdepth b y hy) htext
  · intro hdocument
    rw [hdocument]

/-- Redaction is exact, for single values and for pages of them: the text tells
    apart what differs outside the hashes, and nothing else. -/
theorem redaction (Utc : Type) [TimeLine Utc] [uuid.Parser] :
    EncodesUpTo (User Utc) User.AgreesWith ∧ EncodesUpTo (ShareLink Utc) ShareLink.AgreesWith ∧
      EncodesUpTo (PageResponse (User Utc)) (PageResponse.AgreesUpTo User.AgreesWith) ∧
      EncodesUpTo (PageResponse (ShareLink Utc)) (PageResponse.AgreesUpTo ShareLink.AgreesWith) := by
  have husers := user_discloses Utc
  have hlinks := share_link_discloses Utc
  refine ⟨encodesUpTo_of_discloses husers ?_, encodesUpTo_of_discloses hlinks ?_,
    encodesUpTo_of_discloses (page_discloses husers) ?_,
    encodesUpTo_of_discloses (page_discloses hlinks) ?_⟩
  · intro user
    exact user.nestsAtMost.mono (by decide)
  · intro link
    exact link.nestsAtMost.mono (by decide)
  · intro page
    exact (page_nestsAtMost User.nestsAtMost page).mono (by decide)
  · intro page
    exact (page_nestsAtMost ShareLink.nestsAtMost page).mono (by decide)

end jiezi_cloud_core
