import JieziCloud.Crates.Chrono
import JieziCloud.Serde.HashMap
import JieziCloud.Serde.Value
import JieziCloud.Types.Ids

open chrono jiezi_cloud_core.types json result serde

namespace jiezi_cloud_core.models.file

/-- The kind of a node of the virtual file system. -/
inductive NodeType where
  | File
  | Directory
  | Symlink
  deriving DecidableEq

namespace NodeType

def derived : UnitEnum NodeType where
  identifier
    | .File => "File"
    | .Directory => "Directory"
    | .Symlink => "Symlink"
  variants := [.File, .Directory, .Symlink]
  find_self e := by cases e <;> decide

instance : Serialize NodeType := ⟨derived.serialize⟩

instance : Deserialize NodeType where
  deserialize := derived.deserialize

instance {R : Json → Json → Prop} [Disturbance R] : Survives R NodeType := ⟨derived.survives⟩

instance : Flat NodeType := ⟨derived.nestsAtMost⟩

end NodeType

abbrev MimeType : Type := String

/-- Extended metadata of a node. Every field may be missing from a document. -/
structure FileMetadata where
  tags : List String
  extra : HashMap Value
  is_indexed : Bool
  has_thumbnail : Bool

namespace FileMetadata

def derived : Struct FileMetadata (List String × HashMap Value × Bool × Bool × Unit) where
  expected := "struct FileMetadata"
  fields := .cons ((field "tags").or_default []) <| .cons ((field "extra").or_default HashMap.new) <|
    .cons ((field "is_indexed").or_default false) <|
    .cons ((field "has_thumbnail").or_default false) .nil
  row :=
    { toFun self := (self.tags, self.extra, self.is_indexed, self.has_thumbnail, ())
      invFun := fun (tags, extra, is_indexed, has_thumbnail, ()) =>
        { tags, extra, is_indexed, has_thumbnail } }

instance : Serialize FileMetadata := ⟨derived.serialize⟩

instance : Deserialize FileMetadata where
  deserialize := derived.deserialize

theorem names : derived.fields.names.Nodup := by decide

/-- Each field of the metadata is read back from its own document, the extra
    values as a map. -/
theorem survive : derived.fields.Survive Eq :=
  ⟨survive_field "tags", survive_field "extra", survive_field "is_indexed",
    survive_field "has_thumbnail", trivial⟩

instance : Survives Eq FileMetadata := ⟨derived.survives names survive rfl⟩

/-- Equality of all fields, with `extra` compared as a map. -/
def Same (self other : FileMetadata) : Prop :=
  self.tags = other.tags ∧ self.extra.Same other.extra ∧ self.is_indexed = other.is_indexed ∧
    self.has_thumbnail = other.has_thumbnail

/-- No extra value nests more than `bound` arrays and objects. -/
def ExtraNestsAtMost (self : FileMetadata) (bound : Nat) : Prop :=
  ∀ key value, self.extra.get key = some value → value.document.depth ≤ bound

/-- The two levels around an extra value are the metadata and its map of extra
    values; tags and flags never reach as deep. -/
theorem nestsAtMost_iff (self : FileMetadata) (bound : Nat) :
    NestsAtMost serialize (bound + 2) self ↔ self.ExtraNestsAtMost bound := by
  have htags : NestsAtMost serialize (bound + 1) self.tags :=
    list_nestsAtMost fun tag _ => Flat.nestsAtMost tag bound
  have hextra : NestsAtMost serialize (bound + 1) self.extra ↔ self.ExtraNestsAtMost bound := by
    simp only [HashMap.nestsAtMost_iff, Value.nestsAtMost_iff, ExtraNestsAtMost,
      HashMap.get_eq_some_iff, Prod.forall]
  apply (derived.nestsAtMost_iff survive).trans
  rw [← hextra]
  simp [derived, htags]

end FileMetadata

/-- A node of the virtual file system, as the database holds it. -/
structure FileNode (Utc : Type) where
  id : FileId
  parent_id : Option FileId
  space_id : SpaceId
  owner_id : UserId
  name : String
  node_type : NodeType
  size : UInt64
  mime_type : Option MimeType
  content_hash : Option String
  created_at : DateTime Utc
  updated_at : DateTime Utc
  deleted_at : Option (DateTime Utc)
  metadata : FileMetadata

namespace FileNode

section states

variable {Utc : Type}

/-- Whether the node is in the trash. -/
def is_deleted (self : FileNode Utc) : Bool := self.deleted_at.isSome

end states

variable (Utc : Type) [TimeLine Utc] [uuid.Parser]

def derived : Struct (FileNode Utc) (FileId × Option FileId × SpaceId × UserId × String × NodeType ×
    UInt64 × Option MimeType × Option String × DateTime Utc × DateTime Utc × Option (DateTime Utc) ×
    FileMetadata × Unit) where
  expected := "struct FileNode"
  fields := .cons (field "id") <| .cons (field "parent_id") <| .cons (field "space_id") <|
    .cons (field "owner_id") <| .cons (field "name") <| .cons (field "node_type") <|
    .cons (field "size") <| .cons (field "mime_type") <| .cons (field "content_hash") <|
    .cons (field "created_at") <| .cons (field "updated_at") <| .cons (field "deleted_at") <|
    .cons (field "metadata") .nil
  row :=
    { toFun self := (self.id, self.parent_id, self.space_id, self.owner_id, self.name,
        self.node_type, self.size, self.mime_type, self.content_hash, self.created_at,
        self.updated_at, self.deleted_at, self.metadata, ())
      invFun := fun (id, parent_id, space_id, owner_id, name, node_type, size, mime_type,
          content_hash, created_at, updated_at, deleted_at, metadata, ()) =>
        { id, parent_id, space_id, owner_id, name, node_type, size, mime_type, content_hash,
          created_at, updated_at, deleted_at, metadata } }

instance : Serialize (FileNode Utc) := ⟨(derived Utc).serialize⟩

instance : Deserialize (FileNode Utc) where
  deserialize := (derived Utc).deserialize

theorem names : (derived Utc).fields.names.Nodup := of_decide_eq_true rfl

/-- Each field of a node is read back from its own document. -/
theorem survive : (derived Utc).fields.Survive Eq :=
  ⟨survive_field _, survive_field _, survive_field _, survive_field _, survive_field _,
    survive_field _, survive_field _, survive_field _, survive_field _, survive_field _,
    survive_field _, survive_field _, survive_field _, trivial⟩

instance : Survives Eq (FileNode Utc) := ⟨(derived Utc).survives (names Utc) (survive Utc) rfl⟩

variable {Utc}

/-- Equality of all fields, with `extra` compared as a map. -/
def Same (self other : FileNode Utc) : Prop :=
  { self with metadata := other.metadata } = other ∧ self.metadata.Same other.metadata

/-- A node adds one level to its metadata, and all its other fields are flat. -/
theorem nestsAtMost_iff (self : FileNode Utc) (bound : Nat) :
    NestsAtMost serialize (bound + 1) self ↔ NestsAtMost serialize bound self.metadata := by
  apply ((derived Utc).nestsAtMost_iff (survive Utc)).trans
  simp [derived]

/-- The limit leaves a node room for one level less than it leaves metadata. -/
theorem nestsAtMost_iff_extra (self : FileNode Utc) :
    NestsAtMost serialize recursion_limit self ↔ self.metadata.ExtraNestsAtMost 124 := by
  rw [← FileMetadata.nestsAtMost_iff]
  exact self.nestsAtMost_iff 126

end FileNode

end jiezi_cloud_core.models.file
