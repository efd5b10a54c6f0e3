import JieziCloud.Crates.Chrono
import JieziCloud.Serde.Tagged.Survives
import JieziCloud.Types.Ids

open chrono json jiezi_cloud_core.types serde

namespace jiezi_cloud_core.models.task

/-- The lifecycle states of a background task. -/
inductive TaskStatus where
  | Pending
  | Running
  | Completed
  | Failed
  | Cancelled
  deriving DecidableEq

namespace TaskStatus

def derived : UnitEnum TaskStatus where
  identifier
    | .Pending => "Pending"
    | .Running => "Running"
    | .Completed => "Completed"
    | .Failed => "Failed"
    | .Cancelled => "Cancelled"
  variants := [.Pending, .Running, .Completed, .Failed, .Cancelled]
  find_self e := by cases e <;> decide

instance : Serialize TaskStatus := ⟨derived.serialize⟩

instance : Deserialize TaskStatus where
  deserialize := derived.deserialize

instance {R : Json → Json → Prop} [Disturbance R] : Survives R TaskStatus := ⟨derived.survives⟩

instance : Flat TaskStatus := ⟨derived.nestsAtMost⟩

end TaskStatus

/-- The work that a background task performs. -/
inductive TaskKind where
  | FileIndex (file_id : String)
  | ThumbnailGeneration (file_id : String)
  | VideoTranscode (file_id target_format : String)
  | SearchIndexRebuild
  | StorageReplication (chunk_hash target_backend : String)
  deriving DecidableEq

namespace TaskKind

def FileIndex_variant : StructVariant TaskKind (String × Unit) where
  identifier := "FileIndex"
  fields := .cons (field "file_id") .nil
  make := fun (file_id, ()) => .FileIndex file_id

def ThumbnailGeneration_variant : StructVariant TaskKind (String × Unit) where
  identifier := "ThumbnailGeneration"
  fields := .cons (field "file_id") .nil
  make := fun (file_id, ()) => .ThumbnailGeneration file_id

def VideoTranscode_variant : StructVariant TaskKind (String × String × Unit) where
  identifier := "VideoTranscode"
  fields := .cons (field "file_id") <| .cons (field "target_format") .nil
  make := fun (file_id, target_format, ()) => .VideoTranscode file_id target_format

def StorageReplication_variant : StructVariant TaskKind (String × String × Unit) where
  identifier := "StorageReplication"
  fields := .cons (field "chunk_hash") <| .cons (field "target_backend") .nil
  make := fun (chunk_hash, target_backend, ()) => .StorageReplication chunk_hash target_backend

def derived : Tagged TaskKind where
  container := "TaskKind"
  tag := "type"
  variants := [FileIndex_variant.variant "TaskKind", ThumbnailGeneration_variant.variant "TaskKind",
    VideoTranscode_variant.variant "TaskKind", .unit "SearchIndexRebuild" .SearchIndexRebuild,
    StorageReplication_variant.variant "TaskKind"]
  distinct := by decide

instance : Serialize TaskKind where
  serialize
    | .FileIndex file_id => derived.serialize_struct FileIndex_variant (file_id, ())
    | .ThumbnailGeneration file_id =>
      derived.serialize_struct ThumbnailGeneration_variant (file_id, ())
    | .VideoTranscode file_id target_format =>
      derived.serialize_struct VideoTranscode_variant (file_id, target_format, ())
    | .SearchIndexRebuild => derived.serialize_unit "SearchIndexRebuild"
    | .StorageReplication chunk_hash target_backend =>
      derived.serialize_struct StorageReplication_variant (chunk_hash, target_backend, ())

instance : Deserialize TaskKind where
  deserialize := derived.deserialize

instance {R : Json → Json → Prop} [Disturbance R] : Survives R TaskKind where
  survives self := by
    cases self with
    | FileIndex file_id =>
      exact derived.survives_struct FileIndex_variant (by simp [derived]) (by decide)
        ⟨survive_field _, trivial⟩ rfl (file_id, ())
    | ThumbnailGeneration file_id =>
      exact derived.survives_struct ThumbnailGeneration_variant (by simp [derived])
        (by decide) ⟨survive_field _, trivial⟩ rfl (file_id, ())
    | VideoTranscode file_id target_format =>
      exact derived.survives_struct VideoTranscode_variant (by simp [derived])
        (by decide) ⟨survive_field _, survive_field _, trivial⟩ rfl
        (file_id, target_format, ())
    | SearchIndexRebuild => exact derived.survives_unit _ _ (by simp [derived])
    | StorageReplication chunk_hash target_backend =>
      exact derived.survives_struct StorageReplication_variant (by simp [derived])
        (by decide) ⟨survive_field _, survive_field _, trivial⟩ rfl
        (chunk_hash, target_backend, ())

/-- The kind of a task is one object, or one with only the tag. -/
theorem nestsAtMost (self : TaskKind) : NestsAtMost serialize 1 self := by
  intro data hdata
  cases self with
  | FileIndex file_id =>
    exact derived.struct_nestsAtMost (by simp [FileIndex_variant]) hdata
  | ThumbnailGeneration file_id =>
    exact derived.struct_nestsAtMost (by simp [ThumbnailGeneration_variant]) hdata
  | VideoTranscode file_id target_format =>
    exact derived.struct_nestsAtMost (by simp [VideoTranscode_variant]) hdata
  | SearchIndexRebuild => exact derived.unit_nestsAtMost hdata
  | StorageReplication chunk_hash target_backend =>
    exact derived.struct_nestsAtMost (by simp [StorageReplication_variant]) hdata

end TaskKind

/-- A trackable unit of work. -/
structure BackgroundTask (Utc : Type) where
  id : TaskId
  kind : TaskKind
  status : TaskStatus
  owner_id : Option UserId
  progress : UInt8
  error_message : Option String
  created_at : DateTime Utc
  updated_at : DateTime Utc
  completed_at : Option (DateTime Utc)

namespace BackgroundTask

variable (Utc : Type) [TimeLine Utc] [uuid.Parser]

def derived : Struct (BackgroundTask Utc) (TaskId × TaskKind × TaskStatus × Option UserId × UInt8 ×
    Option String × DateTime Utc × DateTime Utc × Option (DateTime Utc) × Unit) where
  expected := "struct BackgroundTask"
  fields := .cons (field "id") <| .cons (field "kind") <| .cons (field "status") <|
    .cons (field "owner_id") <| .cons (field "progress") <| .cons (field "error_message") <|
    .cons (field "created_at") <| .cons (field "updated_at") <| .cons (field "completed_at") .nil
  row :=
    { toFun self := (self.id, self.kind, self.status, self.owner_id, self.progress,
        self.error_message, self.created_at, self.updated_at, self.completed_at, ())
      invFun := fun (id, kind, status, owner_id, progress, error_message, created_at, updated_at,
          completed_at, ()) =>
        { id, kind, status, owner_id, progress, error_message, created_at, updated_at, completed_at } }

instance : Serialize (BackgroundTask Utc) := ⟨(derived Utc).serialize⟩

instance : Deserialize (BackgroundTask Utc) where
  deserialize := (derived Utc).deserialize

instance {R : Json → Json → Prop} [Disturbance R] : Survives R (BackgroundTask Utc) where
  survives := (derived Utc).survives (of_decide_eq_true rfl)
    ⟨survive_field _, survive_field _, survive_field _, survive_field _, survive_field _,
      survive_field _, survive_field _, survive_field _, survive_field _, trivial⟩ rfl

variable {Utc}

/-- A task nests its kind, and nothing below it. -/
theorem nestsAtMost (self : BackgroundTask Utc) : NestsAtMost serialize 2 self :=
  (derived Utc).nestsAtMost (by simp [derived, TaskKind.nestsAtMost])

end BackgroundTask

end jiezi_cloud_core.models.task
