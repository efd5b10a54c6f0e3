import JieziCloud.Crates.Chrono
import JieziCloud.Types.BackendId
import JieziCloud.Types.Ids

open chrono jiezi_cloud_core.types json serde

namespace jiezi_cloud_core.models.chunk

/-- What is known of one chunk of a file. -/
structure ChunkInfo where
  hash : String
  size : UInt32
  offset : UInt64
  index : UInt32
  deriving DecidableEq

namespace ChunkInfo

def derived : Struct ChunkInfo (String × UInt32 × UInt64 × UInt32 × Unit) where
  expected := "struct ChunkInfo"
  fields := .cons (field "hash") <| .cons (field "size") <| .cons (field "offset") <|
    .cons (field "index") .nil
  row :=
    { toFun self := (self.hash, self.size, self.offset, self.index, ())
      invFun := fun (hash, size, offset, index, ()) => { hash, size, offset, index } }

instance : Serialize ChunkInfo := ⟨derived.serialize⟩

instance : Deserialize ChunkInfo where
  deserialize := derived.deserialize

instance {R : Json → Json → Prop} [Disturbance R] : Survives R ChunkInfo where
  survives := derived.survives (of_decide_eq_true rfl)
    ⟨survive_field _, survive_field _, survive_field _, survive_field _, trivial⟩ rfl

/-- A chunk is one object of strings and numbers. -/
theorem nestsAtMost (self : ChunkInfo) : NestsAtMost serialize 1 self :=
  derived.nestsAtMost (by simp [derived])

end ChunkInfo

/-- The link from a file to one of its chunks. -/
structure ChunkRef where
  chunk_hash : String
  file_id : FileId
  sequence : UInt32

namespace ChunkRef

variable [uuid.Parser]

def derived : Struct ChunkRef (String × FileId × UInt32 × Unit) where
  expected := "struct ChunkRef"
  fields := .cons (field "chunk_hash") <| .cons (field "file_id") <| .cons (field "sequence") .nil
  row :=
    { toFun self := (self.chunk_hash, self.file_id, self.sequence, ())
      invFun := fun (chunk_hash, file_id, sequence, ()) => { chunk_hash, file_id, sequence } }

instance : Serialize ChunkRef := ⟨derived.serialize⟩

instance : Deserialize ChunkRef where
  deserialize := derived.deserialize

instance {R : Json → Json → Prop} [Disturbance R] : Survives R ChunkRef where
  survives := derived.survives (of_decide_eq_true rfl)
    ⟨survive_field _, survive_field _, survive_field _, trivial⟩ rfl

theorem nestsAtMost (self : ChunkRef) : NestsAtMost serialize 1 self :=
  derived.nestsAtMost (by simp [derived])

end ChunkRef

/-- Where a chunk is stored. -/
structure StorageRef where
  chunk_hash : String
  backend_id : BackendId
  key : String
  size : UInt64
  deriving DecidableEq

namespace StorageRef

def derived : Struct StorageRef (String × BackendId × String × UInt64 × Unit) where
  expected := "struct StorageRef"
  fields := .cons (field "chunk_hash") <| .cons (field "backend_id") <| .cons (field "key") <|
    .cons (field "size") .nil
  row :=
    { toFun self := (self.chunk_hash, self.backend_id, self.key, self.size, ())
      invFun := fun (chunk_hash, backend_id, key, size, ()) => { chunk_hash, backend_id, key, size } }

instance : Serialize StorageRef := ⟨derived.serialize⟩

instance : Deserialize StorageRef where
  deserialize := derived.deserialize

instance {R : Json → Json → Prop} [Disturbance R] : Survives R StorageRef where
  survives := derived.survives (of_decide_eq_true rfl)
    ⟨survive_field _, survive_field _, survive_field _, survive_field _, trivial⟩ rfl

theorem nestsAtMost (self : StorageRef) : NestsAtMost serialize 1 self :=
  derived.nestsAtMost (by simp [derived])

end StorageRef

/-- An upload in progress. -/
structure UploadSession (Utc : Type) where
  upload_id : String
  file_id : FileId
  total_size : UInt64
  completed_chunks : UInt32
  total_chunks : UInt32
  created_at : DateTime Utc

namespace UploadSession

section counts

variable {Utc : Type}

/-- Whether all expected chunks have been received. -/
def is_complete (self : UploadSession Utc) : Bool := self.completed_chunks == self.total_chunks

/-- The fraction of chunks received. -/
def progress (self : UploadSession Utc) : Float :=
  if self.total_chunks = 0 then 1.0
  else self.completed_chunks.toFloat / self.total_chunks.toFloat

end counts

variable (Utc : Type) [TimeLine Utc] [uuid.Parser]

def derived : Struct (UploadSession Utc)
    (String × FileId × UInt64 × UInt32 × UInt32 × DateTime Utc × Unit) where
  expected := "struct UploadSession"
  fields := .cons (field "upload_id") <| .cons (field "file_id") <| .cons (field "total_size") <|
    .cons (field "completed_chunks") <| .cons (field "total_chunks") <|
    .cons (field "created_at") .nil
  row :=
    { toFun self := (self.upload_id, self.file_id, self.total_size, self.completed_chunks,
        self.total_chunks, self.created_at, ())
      invFun := fun (upload_id, file_id, total_size, completed_chunks, total_chunks, created_at, ()) =>
        { upload_id, file_id, total_size, completed_chunks, total_chunks, created_at } }

instance : Serialize (UploadSession Utc) := ⟨(derived Utc).serialize⟩

instance : Deserialize (UploadSession Utc) where
  deserialize := (derived Utc).deserialize

instance {R : Json → Json → Prop} [Disturbance R] : Survives R (UploadSession Utc) where
  survives := (derived Utc).survives (of_decide_eq_true rfl)
    ⟨survive_field _, survive_field _, survive_field _, survive_field _, survive_field _,
      survive_field _, trivial⟩ rfl

variable {Utc}

/-- A session is one object as well: its times and its options are strings, or
    null. -/
theorem nestsAtMost (self : UploadSession Utc) : NestsAtMost serialize 1 self :=
  (derived Utc).nestsAtMost (by simp [derived])

end UploadSession

end jiezi_cloud_core.models.chunk
