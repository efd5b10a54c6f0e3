import JieziCloud.Models.User.Payloads
import JieziCloud.Serde.Struct.Accept

open json result serde

namespace jiezi_cloud_core.models.user

/-- Every field of the claims survives whatever keeps the members of an object. -/
theorem Claims.survive {R : Json → Json → Prop} [Disturbance R] : Claims.derived.fields.Survive R :=
  ⟨survive_field _, survive_field _, survive_field _, survive_field _, trivial⟩

theorem RefreshClaims.survive {R : Json → Json → Prop} [Disturbance R] :
    RefreshClaims.derived.fields.Survive R :=
  ⟨survive_field _, survive_field _, survive_field _, survive_field _, trivial⟩

/-- The claims of an access token are taken for those of a refresh token only
    after somebody has added a family to them. -/
theorem Claims.read_as_refresh_iff {self : Claims} {other : RefreshClaims} {document relaxed : Json}
    (hdocument : to_document self = .ok document) (hrelaxed : Relaxed document relaxed) :
    deserialize relaxed = .ok other ↔
      other.sub = self.sub ∧ other.exp = self.exp ∧ other.iat = self.iat ∧
        Holds relaxed "family" other.family := by
  obtain ⟨data, hdata, rfl⟩ := map_eq_ok_iff.mp hdocument
  obtain ⟨entries, rfl, hkept⟩ := derived.kept names survive hdata hrelaxed
  simp only [derived, Fields.kept_field, Equiv.coe_fn_mk, Fields.kept_nil, and_true] at hkept
  obtain ⟨hsub, hexp, hiat, _⟩ := hkept
  apply (RefreshClaims.derived.deserialize_obj_eq_ok_iff RefreshClaims.names).trans
  simp only [RefreshClaims.derived, Fields.readFrom_cons, Fields.readFrom_nil, Equiv.coe_fn_mk, and_true,
    hsub.readAs_iff, hexp.readAs_iff, hiat.readAs_iff, holds_obj_iff]
  rw [Field.readAs_iff_of_required rfl]

/-- The claims of a refresh token are taken for those of an access token only
    after somebody has added a role to them. -/
theorem RefreshClaims.read_as_claims_iff {self : RefreshClaims} {other : Claims}
    {document relaxed : Json} (hdocument : to_document self = .ok document)
    (hrelaxed : Relaxed document relaxed) :
    deserialize relaxed = .ok other ↔
      other.sub = self.sub ∧ other.exp = self.exp ∧ other.iat = self.iat ∧
        Holds relaxed "role" other.role := by
  obtain ⟨data, hdata, rfl⟩ := map_eq_ok_iff.mp hdocument
  obtain ⟨entries, rfl, hkept⟩ := derived.kept names survive hdata hrelaxed
  simp only [derived, Fields.kept_field, Equiv.coe_fn_mk, Fields.kept_nil, and_true] at hkept
  obtain ⟨hsub, hexp, hiat, _⟩ := hkept
  apply (Claims.derived.deserialize_obj_eq_ok_iff Claims.names).trans
  simp only [Claims.derived, Fields.readFrom_cons, Fields.readFrom_nil, Equiv.coe_fn_mk, and_true,
    hsub.readAs_iff, hexp.readAs_iff, hiat.readAs_iff, holds_obj_iff]
  rw [Field.readAs_iff_of_required rfl]

/-- Access claims are written without a family, which refresh claims cannot do
    without. -/
theorem Claims.not_holds_family (self : Claims) {data : Data} (hdata : serialize self = .ok data)
    (family : String) : ¬Holds data.to_json "family" family :=
  derived.not_holds hdata (by decide) family

/-- Refresh claims are written without a role, which access claims cannot do
    without. -/
theorem RefreshClaims.not_holds_role (self : RefreshClaims) {data : Data}
    (hdata : serialize self = .ok data) (role : Role) : ¬Holds data.to_json "role" role :=
  derived.not_holds hdata (by decide) role

/-- The claims of the two kinds of token are never mistaken for each other as
    they are written. A relaxed form of the ones is read as the others exactly
    when it has gained the member that only the others have, and it then keeps
    the subject and the times. -/
theorem tokens_apart [TextFormat recursion_limit] (claims : Claims) (refresh : RefreshClaims) :
    (∀ text, to_string claims = .ok text → from_str text ≠ .ok refresh) ∧
      (∀ text, to_string refresh = .ok text → from_str text ≠ .ok claims) ∧
      (∀ document relaxed, to_document claims = .ok document → Relaxed document relaxed →
        (deserialize relaxed = .ok refresh ↔ refresh.sub = claims.sub ∧ refresh.exp = claims.exp ∧
          refresh.iat = claims.iat ∧ Holds relaxed "family" refresh.family)) ∧
      ∀ document relaxed, to_document refresh = .ok document → Relaxed document relaxed →
        (deserialize relaxed = .ok claims ↔ claims.sub = refresh.sub ∧ claims.exp = refresh.exp ∧
          claims.iat = refresh.iat ∧ Holds relaxed "role" claims.role) := by
  refine ⟨?_, ?_, fun _ _ => claims.read_as_refresh_iff, fun _ _ => refresh.read_as_claims_iff⟩
  · intro text htext hread
    obtain ⟨document, hdocument, rfl⟩ := map_eq_ok_iff.mp htext
    obtain ⟨data, hdata, rfl⟩ := map_eq_ok_iff.mp hdocument
    rw [from_str_write (claims.nestsAtMost.mono (by decide) data hdata),
      claims.read_as_refresh_iff hdocument (Relaxed.refl _)] at hread
    exact claims.not_holds_family hdata _ hread.2.2.2
  · intro text htext hread
    obtain ⟨document, hdocument, rfl⟩ := map_eq_ok_iff.mp htext
    obtain ⟨data, hdata, rfl⟩ := map_eq_ok_iff.mp hdocument
    rw [from_str_write (refresh.nestsAtMost.mono (by decide) data hdata),
      refresh.read_as_claims_iff hdocument (Relaxed.refl _)] at hread
    exact refresh.not_holds_role hdata _ hread.2.2.2

end jiezi_cloud_core.models.user
