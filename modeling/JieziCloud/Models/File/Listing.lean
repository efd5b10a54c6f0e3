import JieziCloud.Models.File.RoundTrip
import JieziCloud.Redaction
import JieziCloud.Types.Pagination.Wire

open chrono jiezi_cloud_core.types json result serde

namespace jiezi_cloud_core.models.file

theorem FileNode.Same.refl {Utc : Type} (self : FileNode Utc) : self.Same self :=
  ⟨rfl, rfl, HashMap.Same.refl _, rfl, rfl⟩

variable {Utc : Type} [TimeLine Utc] [uuid.Parser]

variable [TextFormat recursion_limit]

end jiezi_cloud_core.models.file
