import JieziCloud.Models.File.Listing
import JieziCloud.Recovery
import JieziCloud.Serde.Recovers.Map

open chrono jiezi_cloud_core.types json result serde

namespace jiezi_cloud_core.models.file

/-- The metadata agrees outside of the extra values, and has gained only what
    can be added to their documents: scalars, under keys of their own. -/
structure FileMetadata.Gains (before after : FileMetadata) : Prop where
  fields : { before with extra := after.extra } = after
  kept : ∀ key value, before.extra.get key = some value →
    ∃ found, after.extra.get key = some found ∧ Relaxed value.document found.document
  added : ∀ key value, after.extra.get key = some value → before.extra.get key = none →
    value.document.IsScalar

/-- The node agrees outside of what its metadata has gained. -/
def FileNode.Gains {Utc : Type} (before after : FileNode Utc) : Prop :=
  { before with metadata := after.metadata } = after ∧ before.metadata.Gains after.metadata

section nodes

variable (Utc : Type) [TimeLine Utc] [uuid.Parser]

variable [TextFormat recursion_limit]

end nodes

end jiezi_cloud_core.models.file
