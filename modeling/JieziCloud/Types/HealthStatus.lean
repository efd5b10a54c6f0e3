import JieziCloud.Serde.Tagged.Survives

open json serde

namespace jiezi_cloud_core.types

inductive HealthStatus where
  | Healthy
  | Degraded (reason : String)
  | Unhealthy (reason : String)
  deriving DecidableEq

namespace HealthStatus

def Degraded_variant : StructVariant HealthStatus (String × Unit) where
  identifier := "Degraded"
  fields := .cons (field "reason") .nil
  make := fun (reason, ()) => .Degraded reason

def Unhealthy_variant : StructVariant HealthStatus (String × Unit) where
  identifier := "Unhealthy"
  fields := .cons (field "reason") .nil
  make := fun (reason, ()) => .Unhealthy reason

def derived : Tagged HealthStatus where
  container := "HealthStatus"
  tag := "status"
  variants := [.unit "Healthy" .Healthy, Degraded_variant.variant "HealthStatus",
    Unhealthy_variant.variant "HealthStatus"]
  distinct := by decide

instance : Serialize HealthStatus where
  serialize
    | .Healthy => derived.serialize_unit "Healthy"
    | .Degraded reason => derived.serialize_struct Degraded_variant (reason, ())
    | .Unhealthy reason => derived.serialize_struct Unhealthy_variant (reason, ())

instance : Deserialize HealthStatus where
  deserialize := derived.deserialize

instance {R : Json → Json → Prop} [Disturbance R] : Survives R HealthStatus where
  survives self := by
    have hreason := survive_field (R := R) (A := String) "reason"
    cases self with
    | Healthy => exact derived.survives_unit _ _ (by simp [derived])
    | Degraded reason =>
      exact derived.survives_struct Degraded_variant (by simp [derived]) (by decide)
        ⟨hreason, trivial⟩ rfl (reason, ())
    | Unhealthy reason =>
      exact derived.survives_struct Unhealthy_variant (by simp [derived]) (by decide)
        ⟨hreason, trivial⟩ rfl (reason, ())

/-- A report is one object, of the tag and at most a reason. -/
theorem nestsAtMost (self : HealthStatus) : NestsAtMost serialize 1 self := by
  intro data hdata
  cases self with
  | Healthy => exact derived.unit_nestsAtMost hdata
  | Degraded reason =>
    exact derived.struct_nestsAtMost (by simp [Degraded_variant]) hdata
  | Unhealthy reason =>
    exact derived.struct_nestsAtMost (by simp [Unhealthy_variant]) hdata

end HealthStatus

end jiezi_cloud_core.types
