import JieziCloud.Crates.Chrono
import JieziCloud.Serde.Nesting
import JieziCloud.Types.Ids

open chrono json jiezi_cloud_core.types result serde

namespace jiezi_cloud_core.models.user

/-- The roles of the system, from all permissions to read-only ones. -/
inductive Role where
  | Owner
  | Admin
  | Member
  | Guest
  deriving DecidableEq

namespace Role

def derived : UnitEnum Role where
  identifier
    | .Owner => "Owner"
    | .Admin => "Admin"
    | .Member => "Member"
    | .Guest => "Guest"
  variants := [.Owner, .Admin, .Member, .Guest]
  find_self e := by cases e <;> decide

instance : Serialize Role := ⟨derived.serialize⟩

instance : Deserialize Role where
  deserialize := derived.deserialize

instance {R : Json → Json → Prop} [Disturbance R] : Survives R Role := ⟨derived.survives⟩

/-- A field of an internally tagged enum, whose content is buffered. -/
def buffered_field (name : String) : serde.Field Role :=
  (field name).buffered derived.from_content

instance : Flat Role := ⟨derived.nestsAtMost⟩

end Role

/-- The core user entity. The hash is left out of every serialized form. -/
structure User (Utc : Type) where
  id : UserId
  username : String
  email : String
  password_hash : String
  role : Role
  created_at : DateTime Utc
  updated_at : DateTime Utc
  is_active : Bool
  display_name : Option String
  avatar_url : Option String
  storage_quota : Option UInt64
  storage_used : UInt64

namespace User

variable (Utc : Type) [TimeLine Utc] [uuid.Parser]

def derived : Struct (User Utc) (UserId × String × String × String × Role × DateTime Utc ×
    DateTime Utc × Bool × Option String × Option String × Option UInt64 × UInt64 × Unit) where
  expected := "struct User"
  fields := .cons (field "id") <| .cons (field "username") <| .cons (field "email") <|
    .cons (field "password_hash").unserialized <| .cons (field "role") <|
    .cons (field "created_at") <| .cons (field "updated_at") <| .cons (field "is_active") <|
    .cons (field "display_name") <| .cons (field "avatar_url") <| .cons (field "storage_quota") <|
    .cons (field "storage_used") .nil
  row :=
    { toFun self := (self.id, self.username, self.email, self.password_hash, self.role,
        self.created_at, self.updated_at, self.is_active, self.display_name, self.avatar_url,
        self.storage_quota, self.storage_used, ())
      invFun := fun (id, username, email, password_hash, role, created_at, updated_at, is_active,
          display_name, avatar_url, storage_quota, storage_used, ()) =>
        { id, username, email, password_hash, role, created_at, updated_at, is_active,
          display_name, avatar_url, storage_quota, storage_used } }

instance : Serialize (User Utc) := ⟨(derived Utc).serialize⟩

instance : Deserialize (User Utc) where
  deserialize := (derived Utc).deserialize

theorem names : (derived Utc).fields.names.Nodup := of_decide_eq_true rfl

/-- Every field of a user would be read back from its own document, the hash
    included. It is only missing from the document of the user. -/
theorem survive : (derived Utc).fields.Survive Eq :=
  ⟨survive_field _, survive_field _, survive_field _, survive_field "password_hash", survive_field _,
    survive_field _, survive_field _, survive_field _, survive_field _, survive_field _,
    survive_field _, survive_field _, trivial⟩

variable {Utc}

theorem nestsAtMost (self : User Utc) : NestsAtMost serialize 1 self :=
  (derived Utc).nestsAtMost (by simp [derived])

/-- The decoder waits for the one member that the encoder leaves out. -/
theorem retained (self : User Utc) :
    (derived Utc).fields.retained ((derived Utc).row self) = .error (.missing_field "password_hash") :=
  rfl

variable [TextFormat recursion_limit]

/-- The text of a user is refused for the hash that it lacks, whatever the user
    is. -/
theorem rereads (self : User Utc) : Rereads self (.error (.missing_field "password_hash")) := by
  have hdepth : NestsAtMost serialize recursion_limit self := self.nestsAtMost.mono (by decide)
  have hread := (derived Utc).rereads (names Utc) (survive Utc) hdepth
  rw [retained, map_error] at hread
  exact hread

/-- Encoding a user to text and decoding the text returns the user, up to the
    hash, which is not part of the text. -/
def ReadsBack (self : User Utc) : Prop :=
  ∃ other : User Utc, Rereads self (.ok other) ∧
    { other with password_hash := self.password_hash } = self

/-- No user is ever read back from its own encoding: the encoder leaves the hash
    out, and the decoder refuses a user without one. -/
theorem not_readsBack (self : User Utc) : ¬self.ReadsBack := by
  rintro ⟨other, hreads, -⟩
  cases hreads.unique self.rereads

end User

/-- An ordinary user of the first minute. -/
def alice : User FirstMinute where
  id := ⟨.repeated 7⟩
  username := "alice"
  email := "alice@example.com"
  password_hash := "secret_hash"
  role := .Member
  created_at := FirstMinute.second 0
  updated_at := FirstMinute.second 0
  is_active := true
  display_name := none
  avatar_url := none
  storage_quota := none
  storage_used := 0

/-- An ordinary user with an ordinary hash is not read back. -/
theorem alice_not_readsBack :
    ¬@User.ReadsBack FirstMinute _ uuid.hyphenatedParser (compact recursion_limit) alice := by
  let _ := uuid.hyphenatedParser
  let _ := compact recursion_limit
  rintro ⟨other, hreads, -⟩
  cases hreads.unique alice.rereads

end jiezi_cloud_core.models.user
