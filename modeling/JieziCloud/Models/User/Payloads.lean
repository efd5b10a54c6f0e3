import JieziCloud.Models.User
import JieziCloud.Serde.Usize

open jiezi_cloud_core.types json serde

namespace jiezi_cloud_core.models.user

namespace Role

/-- `Display` -/
def to_string : Role → String
  | .Owner => "owner"
  | .Admin => "admin"
  | .Member => "member"
  | .Guest => "guest"

/-- A role is displayed under the name it is serialized with. -/
theorem serialize_eq_to_string (self : Role) :
    serialize self = .ok (.unit_variant self.to_string) := by
  cases self <;> rfl

end Role

/-- A grant of a role, for one space or for the whole system. -/
structure Permission where
  role : Role
  space_id : Option SpaceId
  deriving DecidableEq

namespace Permission

variable [uuid.Parser]

def derived : Struct Permission (Role × Option SpaceId × Unit) where
  expected := "struct Permission"
  fields := .cons (field "role") <| .cons (field "space_id") .nil
  row :=
    { toFun self := (self.role, self.space_id, ())
      invFun := fun (role, space_id, ()) => { role, space_id } }

instance : Serialize Permission := ⟨derived.serialize⟩

instance : Deserialize Permission where
  deserialize := derived.deserialize

instance {R : Json → Json → Prop} [Disturbance R] : Survives R Permission where
  survives := derived.survives (of_decide_eq_true rfl) ⟨survive_field _, survive_field _, trivial⟩ rfl

/-- A grant is one object. -/
theorem nestsAtMost (self : Permission) : NestsAtMost serialize 1 self :=
  derived.nestsAtMost (by simp [derived])

end Permission

/-- The claims of an access token. -/
structure Claims where
  sub : String
  exp : USize
  iat : USize
  role : Role
  deriving DecidableEq

namespace Claims

def derived : Struct Claims (String × USize × USize × Role × Unit) where
  expected := "struct Claims"
  fields := .cons (field "sub") <| .cons (field "exp") <| .cons (field "iat") <|
    .cons (field "role") .nil
  row :=
    { toFun self := (self.sub, self.exp, self.iat, self.role, ())
      invFun := fun (sub, exp, iat, role, ()) => { sub, exp, iat, role } }

instance : Serialize Claims := ⟨derived.serialize⟩

instance : Deserialize Claims where
  deserialize := derived.deserialize

theorem names : derived.fields.names.Nodup := of_decide_eq_true rfl

instance {R : Json → Json → Prop} [Disturbance R] : Survives R Claims where
  survives := derived.survives names
    ⟨survive_field _, survive_field _, survive_field _, survive_field _, trivial⟩ rfl

/-- The claims are one object of strings and numbers. -/
theorem nestsAtMost (self : Claims) : NestsAtMost serialize 1 self :=
  derived.nestsAtMost (by simp [derived])

end Claims

/-- The claims of a refresh token. The family tells which tokens were issued
    from one login. -/
structure RefreshClaims where
  sub : String
  exp : USize
  iat : USize
  family : String
  deriving DecidableEq

namespace RefreshClaims

def derived : Struct RefreshClaims (String × USize × USize × String × Unit) where
  expected := "struct RefreshClaims"
  fields := .cons (field "sub") <| .cons (field "exp") <| .cons (field "iat") <|
    .cons (field "family") .nil
  row :=
    { toFun self := (self.sub, self.exp, self.iat, self.family, ())
      invFun := fun (sub, exp, iat, family, ()) => { sub, exp, iat, family } }

instance : Serialize RefreshClaims := ⟨derived.serialize⟩

instance : Deserialize RefreshClaims where
  deserialize := derived.deserialize

theorem names : derived.fields.names.Nodup := of_decide_eq_true rfl

instance {R : Json → Json → Prop} [Disturbance R] : Survives R RefreshClaims where
  survives := derived.survives names
    ⟨survive_field _, survive_field _, survive_field _, survive_field _, trivial⟩ rfl

theorem nestsAtMost (self : RefreshClaims) : NestsAtMost serialize 1 self :=
  derived.nestsAtMost (by simp [derived])

end RefreshClaims

/-- An access token with the refresh token that renews it. -/
structure TokenPair where
  access_token : String
  refresh_token : String
  expires_in : UInt64
  deriving DecidableEq

namespace TokenPair

def derived : Struct TokenPair (String × String × UInt64 × Unit) where
  expected := "struct TokenPair"
  fields := .cons (field "access_token") <| .cons (field "refresh_token") <|
    .cons (field "expires_in") .nil
  row :=
    { toFun self := (self.access_token, self.refresh_token, self.expires_in, ())
      invFun := fun (access_token, refresh_token, expires_in, ()) =>
        { access_token, refresh_token, expires_in } }

instance : Serialize TokenPair := ⟨derived.serialize⟩

instance : Deserialize TokenPair where
  deserialize := derived.deserialize

instance {R : Json → Json → Prop} [Disturbance R] : Survives R TokenPair where
  survives := derived.survives (of_decide_eq_true rfl)
    ⟨survive_field _, survive_field _, survive_field _, trivial⟩ rfl

/-- A pair of tokens is one object of two strings and a number. -/
theorem nestsAtMost (self : TokenPair) : NestsAtMost serialize 1 self :=
  derived.nestsAtMost (by simp [derived])

end TokenPair

/-- The payload of a registration. -/
structure RegisterRequest where
  username : String
  email : String
  password : String
  display_name : Option String
  deriving DecidableEq

namespace RegisterRequest

def derived : Struct RegisterRequest (String × String × String × Option String × Unit) where
  expected := "struct RegisterRequest"
  fields := .cons (field "username") <| .cons (field "email") <| .cons (field "password") <|
    .cons (field "display_name") .nil
  row :=
    { toFun self := (self.username, self.email, self.password, self.display_name, ())
      invFun := fun (username, email, password, display_name, ()) =>
        { username, email, password, display_name } }

instance : Serialize RegisterRequest := ⟨derived.serialize⟩

instance : Deserialize RegisterRequest where
  deserialize := derived.deserialize

theorem names : derived.fields.names.Nodup := of_decide_eq_true rfl

instance {R : Json → Json → Prop} [Disturbance R] : Survives R RegisterRequest where
  survives := derived.survives names
    ⟨survive_field _, survive_field _, survive_field _, survive_field _, trivial⟩ rfl

theorem nestsAtMost (self : RegisterRequest) : NestsAtMost serialize 1 self :=
  derived.nestsAtMost (by simp [derived])

end RegisterRequest

/-- The payload of a login. The credential is a username or an email address. -/
structure LoginRequest where
  credential : String
  password : String
  deriving DecidableEq

namespace LoginRequest

def derived : Struct LoginRequest (String × String × Unit) where
  expected := "struct LoginRequest"
  fields := .cons (field "credential") <| .cons (field "password") .nil
  row :=
    { toFun self := (self.credential, self.password, ())
      invFun := fun (credential, password, ()) => { credential, password } }

instance : Serialize LoginRequest := ⟨derived.serialize⟩

instance : Deserialize LoginRequest where
  deserialize := derived.deserialize

theorem names : derived.fields.names.Nodup := of_decide_eq_true rfl

instance {R : Json → Json → Prop} [Disturbance R] : Survives R LoginRequest where
  survives := derived.survives names ⟨survive_field _, survive_field _, trivial⟩ rfl

theorem nestsAtMost (self : LoginRequest) : NestsAtMost serialize 1 self :=
  derived.nestsAtMost (by simp [derived])

end LoginRequest

end jiezi_cloud_core.models.user
