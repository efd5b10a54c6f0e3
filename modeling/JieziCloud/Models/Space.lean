import JieziCloud.Machine
import JieziCloud.Models.User

open chrono jiezi_cloud_core.models.user jiezi_cloud_core.types json machine serde

namespace jiezi_cloud_core.models.space

/-- A logical container for files and directories. -/
structure Space (Utc : Type) where
  id : SpaceId
  name : String
  description : Option String
  owner_id : UserId
  root_id : FileId
  storage_quota : Option UInt64
  storage_used : UInt64
  created_at : DateTime Utc
  updated_at : DateTime Utc

namespace Space

section quota

variable {Utc : Type}

def is_quota_exceeded (self : Space Utc) : Bool :=
  match self.storage_quota with
  | some quota => self.storage_used > quota
  | none => false

def remaining_quota (self : Space Utc) : Option UInt64 :=
  self.storage_quota.map fun quota => u64_saturating_sub quota self.storage_used

/-- The quota is exceeded when more than it is used. A space that uses exactly its
    quota is full, and does not exceed it. -/
theorem is_quota_exceeded_iff {self : Space Utc} {quota : UInt64}
    (hquota : self.storage_quota = some quota) :
    self.is_quota_exceeded = true ↔ quota.toNat < self.storage_used.toNat := by
  rw [is_quota_exceeded, hquota]
  simp [UInt64.lt_iff_toNat_lt]

/-- What remains of a quota is its difference to the usage, or nothing. -/
theorem remaining_quota_spec {self : Space Utc} {quota : UInt64}
    (hquota : self.storage_quota = some quota) : ∃ remaining,
      self.remaining_quota = some remaining ∧
        remaining.toNat = quota.toNat - self.storage_used.toNat :=
  ⟨_, by rw [remaining_quota, hquota, Option.map_some], u64_saturating_sub_toNat _ _⟩

end quota

variable (Utc : Type) [TimeLine Utc] [uuid.Parser]

def derived : Struct (Space Utc) (SpaceId × String × Option String × UserId × FileId ×
    Option UInt64 × UInt64 × DateTime Utc × DateTime Utc × Unit) where
  expected := "struct Space"
  fields := .cons (field "id") <| .cons (field "name") <| .cons (field "description") <|
    .cons (field "owner_id") <| .cons (field "root_id") <| .cons (field "storage_quota") <|
    .cons (field "storage_used") <| .cons (field "created_at") <| .cons (field "updated_at") .nil
  row :=
    { toFun self := (self.id, self.name, self.description, self.owner_id, self.root_id,
        self.storage_quota, self.storage_used, self.created_at, self.updated_at, ())
      invFun := fun (id, name, description, owner_id, root_id, storage_quota, storage_used,
          created_at, updated_at, ()) =>
        { id, name, description, owner_id, root_id, storage_quota, storage_used, created_at,
          updated_at } }

instance : Serialize (Space Utc) := ⟨(derived Utc).serialize⟩

instance : Deserialize (Space Utc) where
  deserialize := (derived Utc).deserialize

instance {R : Json → Json → Prop} [Disturbance R] : Survives R (Space Utc) where
  survives := (derived Utc).survives (of_decide_eq_true rfl)
    ⟨survive_field _, survive_field _, survive_field _, survive_field _, survive_field _,
      survive_field _, survive_field _, survive_field _, survive_field _, trivial⟩ rfl

variable {Utc}

/-- A space is one object of strings, numbers and null. -/
theorem nestsAtMost (self : Space Utc) : NestsAtMost serialize 1 self :=
  (derived Utc).nestsAtMost (by simp [derived])

end Space

/-- The membership of a user in a space, with the role that the user has there. -/
structure SpaceMember (Utc : Type) where
  space_id : SpaceId
  user_id : UserId
  role : Role
  joined_at : DateTime Utc

namespace SpaceMember

variable (Utc : Type) [TimeLine Utc] [uuid.Parser]

def derived : Struct (SpaceMember Utc) (SpaceId × UserId × Role × DateTime Utc × Unit) where
  expected := "struct SpaceMember"
  fields := .cons (field "space_id") <| .cons (field "user_id") <| .cons (field "role") <|
    .cons (field "joined_at") .nil
  row :=
    { toFun self := (self.space_id, self.user_id, self.role, self.joined_at, ())
      invFun := fun (space_id, user_id, role, joined_at, ()) =>
        { space_id, user_id, role, joined_at } }

instance : Serialize (SpaceMember Utc) := ⟨(derived Utc).serialize⟩

instance : Deserialize (SpaceMember Utc) where
  deserialize := (derived Utc).deserialize

instance {R : Json → Json → Prop} [Disturbance R] : Survives R (SpaceMember Utc) where
  survives := (derived Utc).survives (of_decide_eq_true rfl)
    ⟨survive_field _, survive_field _, survive_field _, survive_field _, trivial⟩ rfl

variable {Utc}

theorem nestsAtMost (self : SpaceMember Utc) : NestsAtMost serialize 1 self :=
  (derived Utc).nestsAtMost (by simp [derived])

end SpaceMember

end jiezi_cloud_core.models.space
