import JieziCloud.Serde.Struct
import JieziCloud.Serde.Struct.Visit
import JieziCloud.Serde.Struct.Document
import JieziCloud.Serde.Enum
import JieziCloud.Serde.Tagged
import JieziCloud.Serde.Tagged.Survives
import JieziCloud.Crates.Chrono
import JieziCloud.Crates.Uuid
import JieziCloud.Crates.Uuid.Order
import JieziCloud.Crates.Uuid.V7
import JieziCloud.Lexicographic
import JieziCloud.Binary64.Quotient
import JieziCloud.Serde.Disclosure
import JieziCloud.Serde.Nesting
import JieziCloud.Serde.HashMap
import JieziCloud.Serde.Value
import JieziCloud.Machine
import JieziCloud.Types.HealthStatus
import JieziCloud.Types.Ids
import JieziCloud.Types.Ids.Order
import JieziCloud.Types.Pagination
import JieziCloud.Types.Pagination.Walk
import JieziCloud.Types.Pagination.Next
import JieziCloud.Models.User
import JieziCloud.Models.Share
import JieziCloud.Models.Share.Downloads
import JieziCloud.Models.Space
import JieziCloud.Models.Space.Quota
import JieziCloud.Types.ResourceRef
import JieziCloud.Events
import JieziCloud.Models.Task
import JieziCloud.Interchange
import JieziCloud.LastCall
import JieziCloud.Models.File
import JieziCloud.Models.File.Builder
import JieziCloud.Redaction
import JieziCloud.Models.File.RoundTrip
import JieziCloud.Models.Chunk.Progress
import JieziCloud.Serde.Usize
import JieziCloud.Models.User.Tokens
import JieziCloud.Traits.Search.Window
import JieziCloud.Records
import JieziCloud.Traits.Auth
import JieziCloud.Kinds
import JieziCloud.Types.Pagination.Start
import JieziCloud.Types.Pagination.Resume
import JieziCloud.Models.File.Listing
import JieziCloud.Interleaving
import JieziCloud.Models.Share.Stored
import JieziCloud.Serde.Recovers
import JieziCloud.Recovery.Walks
import JieziCloud.Models.File.Built
import JieziCloud.Serde.Recovers.Map
import JieziCloud.Models.File.Recovery
