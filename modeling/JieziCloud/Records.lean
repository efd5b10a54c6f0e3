import JieziCloud.Interchange
import JieziCloud.Models.Chunk
import JieziCloud.Models.Space
import JieziCloud.Models.User.Payloads
import JieziCloud.Traits.Search

open chrono jiezi_cloud_core.models.chunk jiezi_cloud_core.models.space jiezi_cloud_core.models.user
open jiezi_cloud_core.traits.search json serde

namespace jiezi_cloud_core

variable [TextFormat recursion_limit]

/-- The records of the chunk store, each of them one flat object. -/
theorem chunks_interchangeable (Utc : Type) [TimeLine Utc] [uuid.Parser] :
    Interchangeable ChunkInfo ∧ Interchangeable ChunkRef ∧ Interchangeable StorageRef ∧
      Interchangeable (UploadSession Utc) := by
  refine ⟨interchangeable_of_survives ?_, interchangeable_of_survives ?_,
    interchangeable_of_survives ?_, interchangeable_of_survives ?_⟩
  · intro info
    exact info.nestsAtMost.mono (by decide)
  · intro ref
    exact ref.nestsAtMost.mono (by decide)
  · intro ref
    exact ref.nestsAtMost.mono (by decide)
  · intro session
    exact session.nestsAtMost.mono (by decide)

/-- The records of spaces and of what users may do in them. -/
theorem spaces_interchangeable (Utc : Type) [TimeLine Utc] [uuid.Parser] :
    Interchangeable (Space Utc) ∧ Interchangeable (SpaceMember Utc) ∧ Interchangeable Permission := by
  refine ⟨interchangeable_of_survives ?_, interchangeable_of_survives ?_,
    interchangeable_of_survives ?_⟩
  · intro space
    exact space.nestsAtMost.mono (by decide)
  · intro member
    exact member.nestsAtMost.mono (by decide)
  · intro permission
    exact permission.nestsAtMost.mono (by decide)

/-- The payloads of the session endpoints. Their passwords and tokens are plain
    fields, which are written and read like any other. -/
theorem payloads_interchangeable : Interchangeable Claims ∧ Interchangeable RefreshClaims ∧
    Interchangeable TokenPair ∧ Interchangeable RegisterRequest ∧ Interchangeable LoginRequest := by
  refine ⟨interchangeable_of_survives ?_, interchangeable_of_survives ?_,
    interchangeable_of_survives ?_, interchangeable_of_survives ?_, interchangeable_of_survives ?_⟩
  · intro claims
    exact claims.nestsAtMost.mono (by decide)
  · intro claims
    exact claims.nestsAtMost.mono (by decide)
  · intro pair
    exact pair.nestsAtMost.mono (by decide)
  · intro req
    exact req.nestsAtMost.mono (by decide)
  · intro req
    exact req.nestsAtMost.mono (by decide)

/-- A search document nests its tags, and a query is flat. -/
theorem searches_interchangeable [uuid.Parser] :
    Interchangeable SearchDocument ∧ Interchangeable SearchQuery := by
  refine ⟨interchangeable_of_survives ?_, interchangeable_of_survives ?_⟩
  · intro doc
    exact doc.nestsAtMost.mono (by decide)
  · intro query
    exact query.nestsAtMost.mono (by decide)

/-- The records of which every field is written and read, and none is free-form,
    are kept by every channel that keeps their members. -/
theorem records_interchangeable (Utc : Type) [TimeLine Utc] [uuid.Parser] :
    (Interchangeable ChunkInfo ∧ Interchangeable ChunkRef ∧ Interchangeable StorageRef ∧
      Interchangeable (UploadSession Utc)) ∧
    (Interchangeable (Space Utc) ∧ Interchangeable (SpaceMember Utc) ∧ Interchangeable Permission) ∧
    (Interchangeable Claims ∧ Interchangeable RefreshClaims ∧ Interchangeable TokenPair ∧
      Interchangeable RegisterRequest ∧ Interchangeable LoginRequest) ∧
    Interchangeable SearchDocument ∧ Interchangeable SearchQuery :=
  ⟨chunks_interchangeable Utc, spaces_interchangeable Utc, payloads_interchangeable,
    searches_interchangeable⟩

end jiezi_cloud_core
