import JieziCloud.Serde.Nesting

open json result serde

namespace jiezi_cloud_core.types

/-- The identifier of a physical storage backend, a human-readable slug. -/
structure BackendId where
  inner : String
  deriving DecidableEq

instance : Serialize BackendId where
  serialize self := .ok (.newtype_struct (.str self.inner))

instance : Deserialize BackendId where
  deserialize j := BackendId.mk <$> deserialize j

instance {R : Json → Json → Prop} [Disturbance R] : Survives R BackendId :=
  survives_of_scalar (fun _ => rfl) (fun _ => trivial) (fun _ => rfl)

instance : Flat BackendId := flat_of_scalar (fun _ => rfl) (fun _ => trivial)

end jiezi_cloud_core.types
