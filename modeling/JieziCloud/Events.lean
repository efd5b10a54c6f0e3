import JieziCloud.Models.User
import JieziCloud.Serde.Tagged.Survives

open jiezi_cloud_core.models.user jiezi_cloud_core.types json serde

namespace jiezi_cloud_core.events

/-- The domain events that the platform emits. -/
inductive DomainEvent where
  | FileUploaded (file_id : FileId) (user_id : UserId) (space_id : SpaceId)
  | FileDeleted (file_id : FileId) (user_id : UserId)
  | FilePermanentlyDeleted (file_id : FileId) (user_id : UserId)
  | FileMoved (file_id : FileId) (user_id : UserId) (new_parent_id : Option FileId)
      (old_name new_name : String)
  | FileRestored (file_id : FileId) (user_id : UserId)
  | FileShared (file_id : FileId) (share_id : ShareId) (created_by : UserId)
  | ShareRevoked (share_id : ShareId) (revoked_by : UserId)
  | UserRegistered (user_id : UserId)
  | UserRoleChanged (user_id : UserId) (old_role new_role : Role)
  | UserDeactivated (user_id : UserId)
  | SpaceCreated (space_id : SpaceId) (owner_id : UserId)
  | SpaceMemberAdded (space_id : SpaceId) (user_id : UserId) (role : Role) (added_by : UserId)
  | SpaceMemberRemoved (space_id : SpaceId) (user_id removed_by : UserId)
  | TaskStatusChanged (task_id : TaskId) (user_id : Option UserId) (kind status : String)
  deriving DecidableEq

namespace DomainEvent

variable [uuid.Parser]

def FileUploaded_variant : StructVariant DomainEvent (FileId × UserId × SpaceId × Unit) where
  identifier := "FileUploaded"
  fields := .cons (field "file_id") <| .cons (field "user_id") <| .cons (field "space_id") .nil
  make := fun (file_id, user_id, space_id, ()) => .FileUploaded file_id user_id space_id

def FileDeleted_variant : StructVariant DomainEvent (FileId × UserId × Unit) where
  identifier := "FileDeleted"
  fields := .cons (field "file_id") <| .cons (field "user_id") .nil
  make := fun (file_id, user_id, ()) => .FileDeleted file_id user_id

def FilePermanentlyDeleted_variant : StructVariant DomainEvent (FileId × UserId × Unit) where
  identifier := "FilePermanentlyDeleted"
  fields := .cons (field "file_id") <| .cons (field "user_id") .nil
  make := fun (file_id, user_id, ()) => .FilePermanentlyDeleted file_id user_id

def FileMoved_variant :
    StructVariant DomainEvent (FileId × UserId × Option FileId × String × String × Unit) where
  identifier := "FileMoved"
  fields := .cons (field "file_id") <| .cons (field "user_id") <| .cons (field "new_parent_id") <|
    .cons (field "old_name") <| .cons (field "new_name") .nil
  make := fun (file_id, user_id, new_parent_id, old_name, new_name, ()) =>
    .FileMoved file_id user_id new_parent_id old_name new_name

def FileRestored_variant : StructVariant DomainEvent (FileId × UserId × Unit) where
  identifier := "FileRestored"
  fields := .cons (field "file_id") <| .cons (field "user_id") .nil
  make := fun (file_id, user_id, ()) => .FileRestored file_id user_id

def FileShared_variant : StructVariant DomainEvent (FileId × ShareId × UserId × Unit) where
  identifier := "FileShared"
  fields := .cons (field "file_id") <| .cons (field "share_id") <| .cons (field "created_by") .nil
  make := fun (file_id, share_id, created_by, ()) => .FileShared file_id share_id created_by

def ShareRevoked_variant : StructVariant DomainEvent (ShareId × UserId × Unit) where
  identifier := "ShareRevoked"
  fields := .cons (field "share_id") <| .cons (field "revoked_by") .nil
  make := fun (share_id, revoked_by, ()) => .ShareRevoked share_id revoked_by

def UserRegistered_variant : StructVariant DomainEvent (UserId × Unit) where
  identifier := "UserRegistered"
  fields := .cons (field "user_id") .nil
  make := fun (user_id, ()) => .UserRegistered user_id

def UserRoleChanged_variant : StructVariant DomainEvent (UserId × Role × Role × Unit) where
  identifier := "UserRoleChanged"
  fields := .cons (field "user_id") <| .cons (Role.buffered_field "old_role") <|
    .cons (Role.buffered_field "new_role") .nil
  make := fun (user_id, old_role, new_role, ()) => .UserRoleChanged user_id old_role new_role

def UserDeactivated_variant : StructVariant DomainEvent (UserId × Unit) where
  identifier := "UserDeactivated"
  fields := .cons (field "user_id") .nil
  make := fun (user_id, ()) => .UserDeactivated user_id

def SpaceCreated_variant : StructVariant DomainEvent (SpaceId × UserId × Unit) where
  identifier := "SpaceCreated"
  fields := .cons (field "space_id") <| .cons (field "owner_id") .nil
  make := fun (space_id, owner_id, ()) => .SpaceCreated space_id owner_id

def SpaceMemberAdded_variant : StructVariant DomainEvent (SpaceId × UserId × Role × UserId × Unit) where
  identifier := "SpaceMemberAdded"
  fields := .cons (field "space_id") <| .cons (field "user_id") <|
    .cons (Role.buffered_field "role") <| .cons (field "added_by") .nil
  make := fun (space_id, user_id, role, added_by, ()) =>
    .SpaceMemberAdded space_id user_id role added_by

def SpaceMemberRemoved_variant : StructVariant DomainEvent (SpaceId × UserId × UserId × Unit) where
  identifier := "SpaceMemberRemoved"
  fields := .cons (field "space_id") <| .cons (field "user_id") <| .cons (field "removed_by") .nil
  make := fun (space_id, user_id, removed_by, ()) => .SpaceMemberRemoved space_id user_id removed_by

def TaskStatusChanged_variant :
    StructVariant DomainEvent (TaskId × Option UserId × String × String × Unit) where
  identifier := "TaskStatusChanged"
  fields := .cons (field "task_id") <| .cons (field "user_id") <| .cons (field "kind") <|
    .cons (field "status") .nil
  make := fun (task_id, user_id, kind, status, ()) => .TaskStatusChanged task_id user_id kind status

def derived : Tagged DomainEvent where
  container := "DomainEvent"
  tag := "type"
  variants := [FileUploaded_variant.variant "DomainEvent",
    FileDeleted_variant.variant "DomainEvent", FilePermanentlyDeleted_variant.variant "DomainEvent",
    FileMoved_variant.variant "DomainEvent", FileRestored_variant.variant "DomainEvent",
    FileShared_variant.variant "DomainEvent", ShareRevoked_variant.variant "DomainEvent",
    UserRegistered_variant.variant "DomainEvent", UserRoleChanged_variant.variant "DomainEvent",
    UserDeactivated_variant.variant "DomainEvent", SpaceCreated_variant.variant "DomainEvent",
    SpaceMemberAdded_variant.variant "DomainEvent",
    SpaceMemberRemoved_variant.variant "DomainEvent",
    TaskStatusChanged_variant.variant "DomainEvent"]
  distinct := by
    change (["FileUploaded", "FileDeleted", "FilePermanentlyDeleted", "FileMoved", "FileRestored",
      "FileShared", "ShareRevoked", "UserRegistered", "UserRoleChanged", "UserDeactivated",
      "SpaceCreated", "SpaceMemberAdded", "SpaceMemberRemoved",
      "TaskStatusChanged"].map snake_case).Nodup
    decide

instance : Serialize DomainEvent where
  serialize
    | .FileUploaded file_id user_id space_id =>
      derived.serialize_struct FileUploaded_variant (file_id, user_id, space_id, ())
    | .FileDeleted file_id user_id =>
      derived.serialize_struct FileDeleted_variant (file_id, user_id, ())
    | .FilePermanentlyDeleted file_id user_id =>
      derived.serialize_struct FilePermanentlyDeleted_variant (file_id, user_id, ())
    | .FileMoved file_id user_id new_parent_id old_name new_name =>
      derived.serialize_struct FileMoved_variant (file_id, user_id, new_parent_id, old_name, new_name, ())
    | .FileRestored file_id user_id =>
      derived.serialize_struct FileRestored_variant (file_id, user_id, ())
    | .FileShared file_id share_id created_by =>
      derived.serialize_struct FileShared_variant (file_id, share_id, created_by, ())
    | .ShareRevoked share_id revoked_by =>
      derived.serialize_struct ShareRevoked_variant (share_id, revoked_by, ())
    | .UserRegistered user_id => derived.serialize_struct UserRegistered_variant (user_id, ())
    | .UserRoleChanged user_id old_role new_role =>
      derived.serialize_struct UserRoleChanged_variant (user_id, old_role, new_role, ())
    | .UserDeactivated user_id => derived.serialize_struct UserDeactivated_variant (user_id, ())
    | .SpaceCreated space_id owner_id =>
      derived.serialize_struct SpaceCreated_variant (space_id, owner_id, ())
    | .SpaceMemberAdded space_id user_id role added_by =>
      derived.serialize_struct SpaceMemberAdded_variant (space_id, user_id, role, added_by, ())
    | .SpaceMemberRemoved space_id user_id removed_by =>
      derived.serialize_struct SpaceMemberRemoved_variant (space_id, user_id, removed_by, ())
    | .TaskStatusChanged task_id user_id kind status =>
      derived.serialize_struct TaskStatusChanged_variant (task_id, user_id, kind, status, ())

instance : Deserialize DomainEvent where
  deserialize := derived.deserialize

instance {R : Json → Json → Prop} [Disturbance R] : Survives R DomainEvent where
  survives self := by
    cases self with
    | FileUploaded file_id user_id space_id =>
      exact derived.survives_struct FileUploaded_variant (by simp [derived])
        (of_decide_eq_true rfl) ⟨survive_field _, survive_field _, survive_field _, trivial⟩ rfl
        (file_id, user_id, space_id, ())
    | FileDeleted file_id user_id =>
      exact derived.survives_struct FileDeleted_variant (by simp [derived])
        (of_decide_eq_true rfl) ⟨survive_field _, survive_field _, trivial⟩ rfl
        (file_id, user_id, ())
    | FilePermanentlyDeleted file_id user_id =>
      exact derived.survives_struct FilePermanentlyDeleted_variant (by simp [derived])
        (of_decide_eq_true rfl) ⟨survive_field _, survive_field _, trivial⟩ rfl
        (file_id, user_id, ())
    | FileMoved file_id user_id new_parent_id old_name new_name =>
      exact derived.survives_struct FileMoved_variant (by simp [derived])
        (of_decide_eq_true rfl) ⟨survive_field _, survive_field _, survive_field _,
          survive_field _, survive_field _, trivial⟩ rfl
        (file_id, user_id, new_parent_id, old_name, new_name, ())
    | FileRestored file_id user_id =>
      exact derived.survives_struct FileRestored_variant (by simp [derived])
        (of_decide_eq_true rfl) ⟨survive_field _, survive_field _, trivial⟩ rfl
        (file_id, user_id, ())
    | FileShared file_id share_id created_by =>
      exact derived.survives_struct FileShared_variant (by simp [derived])
        (of_decide_eq_true rfl) ⟨survive_field _, survive_field _, survive_field _, trivial⟩ rfl
        (file_id, share_id, created_by, ())
    | ShareRevoked share_id revoked_by =>
      exact derived.survives_struct ShareRevoked_variant (by simp [derived])
        (of_decide_eq_true rfl) ⟨survive_field _, survive_field _, trivial⟩ rfl
        (share_id, revoked_by, ())
    | UserRegistered user_id =>
      exact derived.survives_struct UserRegistered_variant (by simp [derived])
        (of_decide_eq_true rfl) ⟨survive_field _, trivial⟩ rfl
        (user_id, ())
    | UserRoleChanged user_id old_role new_role =>
      exact derived.survives_struct UserRoleChanged_variant (by simp [derived])
        (of_decide_eq_true rfl) ⟨survive_field _, Role.derived.survives_content,
          Role.derived.survives_content, trivial⟩ rfl
        (user_id, old_role, new_role, ())
    | UserDeactivated user_id =>
      exact derived.survives_struct UserDeactivated_variant (by simp [derived])
        (of_decide_eq_true rfl) ⟨survive_field _, trivial⟩ rfl
        (user_id, ())
    | SpaceCreated space_id owner_id =>
      exact derived.survives_struct SpaceCreated_variant (by simp [derived])
        (of_decide_eq_true rfl) ⟨survive_field _, survive_field _, trivial⟩ rfl
        (space_id, owner_id, ())
    | SpaceMemberAdded space_id user_id role added_by =>
      exact derived.survives_struct SpaceMemberAdded_variant (by simp [derived])
        (of_decide_eq_true rfl) ⟨survive_field _, survive_field _, Role.derived.survives_content,
          survive_field _, trivial⟩ rfl
        (space_id, user_id, role, added_by, ())
    | SpaceMemberRemoved space_id user_id removed_by =>
      exact derived.survives_struct SpaceMemberRemoved_variant (by simp [derived])
        (of_decide_eq_true rfl) ⟨survive_field _, survive_field _, survive_field _, trivial⟩ rfl
        (space_id, user_id, removed_by, ())
    | TaskStatusChanged task_id user_id kind status =>
      exact derived.survives_struct TaskStatusChanged_variant (by simp [derived])
        (of_decide_eq_true rfl) ⟨survive_field _, survive_field _, survive_field _,
          survive_field _, trivial⟩ rfl
        (task_id, user_id, kind, status, ())

/-- An event is one object without objects or arrays in it, whatever its variant
    carries. -/
theorem nestsAtMost (self : DomainEvent) : NestsAtMost serialize 1 self := by
  intro data hdata
  cases self <;>
    exact derived.struct_nestsAtMost (by
      simp [Role.buffered_field, FileUploaded_variant, FileDeleted_variant, FilePermanentlyDeleted_variant,
        FileMoved_variant, FileRestored_variant, FileShared_variant, ShareRevoked_variant,
        UserRegistered_variant, UserRoleChanged_variant, UserDeactivated_variant,
        SpaceCreated_variant, SpaceMemberAdded_variant, SpaceMemberRemoved_variant,
        TaskStatusChanged_variant]) hdata

end DomainEvent

end jiezi_cloud_core.events
