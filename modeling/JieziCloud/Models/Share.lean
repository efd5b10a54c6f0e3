import JieziCloud.Crates.Chrono
import JieziCloud.Types.Ids

open chrono json jiezi_cloud_core.types result serde

namespace jiezi_cloud_core.models.share

/-- The level of access granted to the recipient of a link. -/
inductive ShareAccess where
  | ReadOnly
  | ReadWrite
  deriving DecidableEq

namespace ShareAccess

def derived : UnitEnum ShareAccess where
  identifier
    | .ReadOnly => "ReadOnly"
    | .ReadWrite => "ReadWrite"
  variants := [.ReadOnly, .ReadWrite]
  find_self e := by cases e <;> decide

instance : Serialize ShareAccess := ⟨derived.serialize⟩

instance : Deserialize ShareAccess where
  deserialize := derived.deserialize

instance {R : Json → Json → Prop} [Disturbance R] : Survives R ShareAccess := ⟨derived.survives⟩

instance : Flat ShareAccess := ⟨derived.nestsAtMost⟩

end ShareAccess

/-- A link that grants access to a file or directory, with an optional
    password, expiry and limit of downloads. -/
structure ShareLink (Utc : Type) where
  id : ShareId
  file_id : FileId
  created_by : UserId
  access : ShareAccess
  password_hash : Option String
  expires_at : Option (DateTime Utc)
  download_limit : Option UInt32
  download_count : UInt32
  created_at : DateTime Utc

namespace ShareLink

section decisions

variable {Utc : Type} [TimeLine Utc]

/-- Whether the link has expired before `now`. -/
def expired_at (self : ShareLink Utc) (now : DateTime Utc) : Bool :=
  match self.expires_at with
  | some exp => now > exp
  | none => false

/-- Whether all the downloads allowed have been made. -/
def exhausted (self : ShareLink Utc) : Bool :=
  match self.download_limit with
  | some limit => self.download_count ≥ limit
  | none => false

def is_valid_at (self : ShareLink Utc) (now : DateTime Utc) : Bool :=
  if self.expired_at now then false
  else if self.exhausted then false
  else true

def is_password_protected (self : ShareLink Utc) : Bool := self.password_hash.isSome

/-- A link is valid at a time when it has not expired by then and has downloads
    left. -/
theorem is_valid_at_iff (self : ShareLink Utc) (now : DateTime Utc) :
    self.is_valid_at now = true ↔ self.expired_at now = false ∧ self.exhausted = false := by
  unfold is_valid_at
  cases self.expired_at now <;> cases self.exhausted <;> simp

end decisions

variable (Utc : Type) [TimeLine Utc] [uuid.Parser]

def derived : Struct (ShareLink Utc) (ShareId × FileId × UserId × ShareAccess × Option String ×
    Option (DateTime Utc) × Option UInt32 × UInt32 × DateTime Utc × Unit) where
  expected := "struct ShareLink"
  fields := .cons (field "id") <| .cons (field "file_id") <| .cons (field "created_by") <|
    .cons (field "access") <| .cons (field "password_hash").unserialized <|
    .cons (field "expires_at") <| .cons (field "download_limit") <|
    .cons (field "download_count") <| .cons (field "created_at") .nil
  row :=
    { toFun self := (self.id, self.file_id, self.created_by, self.access, self.password_hash,
        self.expires_at, self.download_limit, self.download_count, self.created_at, ())
      invFun := fun (id, file_id, created_by, access, password_hash, expires_at, download_limit,
          download_count, created_at, ()) =>
        { id, file_id, created_by, access, password_hash, expires_at, download_limit,
          download_count, created_at } }

instance : Serialize (ShareLink Utc) := ⟨(derived Utc).serialize⟩

instance : Deserialize (ShareLink Utc) where
  deserialize := (derived Utc).deserialize

theorem names : (derived Utc).fields.names.Nodup := of_decide_eq_true rfl

theorem survive : (derived Utc).fields.Survive Eq :=
  ⟨survive_field _, survive_field _, survive_field _, survive_field _,
    survive_field (A := Option String) "password_hash", survive_field _, survive_field _,
    survive_field _, survive_field _, trivial⟩

variable {Utc}

theorem nestsAtMost (self : ShareLink Utc) : NestsAtMost serialize 1 self :=
  (derived Utc).nestsAtMost (by simp [derived])

/-- The decoder takes the member that the encoder leaves out for an absent
    password. -/
theorem retained (self : ShareLink Utc) :
    (derived Utc).fields.retained ((derived Utc).row self) =
      .ok ((derived Utc).row { self with password_hash := none }) :=
  rfl

variable [TextFormat recursion_limit]

/-- The text of a link is read as the link without its password, since the decoder
    can do without the one member that the encoder leaves out. -/
theorem rereads (self : ShareLink Utc) : Rereads self (.ok { self with password_hash := none }) := by
  have hdepth : NestsAtMost serialize recursion_limit self := self.nestsAtMost.mono (by decide)
  have hread := (derived Utc).rereads (names Utc) (survive Utc) hdepth
  rw [retained, map_ok, Equiv.symm_apply_apply] at hread
  exact hread

/-- Encoding a link to text and decoding the text returns a link that takes
    the same access decisions. -/
def KeepsDecisions (self : ShareLink Utc) : Prop :=
  ∃ other : ShareLink Utc, Rereads self (.ok other) ∧
    other.is_password_protected = self.is_password_protected ∧
      ∀ now, other.is_valid_at now = self.is_valid_at now

/-- A link that is written to a text and read back decides as before exactly when
    it has no password. One that has a password is read back as an open link, with
    every other decision unchanged. -/
theorem keepsDecisions_iff (self : ShareLink Utc) :
    self.KeepsDecisions ↔ self.password_hash = none := by
  constructor
  · rintro ⟨other, hreads, hprotected, -⟩
    cases hreads.unique self.rereads
    simpa [is_password_protected] using hprotected
  · intro hnone
    refine ⟨_, self.rereads, ?_, fun _ => rfl⟩
    rw [is_password_protected, is_password_protected, hnone]

end ShareLink

/-- A link that a password protects, without any other constraint. -/
def protected_link : ShareLink FirstMinute where
  id := ⟨.repeated 1⟩
  file_id := ⟨.repeated 2⟩
  created_by := ⟨.repeated 3⟩
  access := .ReadOnly
  password_hash := some "secret_hash"
  expires_at := none
  download_limit := none
  download_count := 0
  created_at := FirstMinute.second 0

/-- A link with a password asks for none once it has been stored and loaded. -/
theorem protected_link_not_keepsDecisions :
    ¬@ShareLink.KeepsDecisions FirstMinute _ uuid.hyphenatedParser (compact recursion_limit)
      protected_link := by
  let _ := uuid.hyphenatedParser
  let _ := compact recursion_limit
  rintro ⟨other, hreads, hprotected, -⟩
  cases hreads.unique protected_link.rereads
  cases hprotected

end jiezi_cloud_core.models.share
