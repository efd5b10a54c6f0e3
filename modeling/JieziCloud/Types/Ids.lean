import JieziCloud.Crates.Uuid.V7
import JieziCloud.Serde.Nesting

open json serde uuid

namespace jiezi_cloud_core.types

/-- A newtype wrapper around `Uuid`, one type for each name. -/
structure newtype_uuid_id (name : String) where
  inner : Uuid
  deriving DecidableEq

abbrev UserId := newtype_uuid_id "UserId"

abbrev FileId := newtype_uuid_id "FileId"

abbrev SpaceId := newtype_uuid_id "SpaceId"

abbrev ShareId := newtype_uuid_id "ShareId"

abbrev ChunkId := newtype_uuid_id "ChunkId"

abbrev TaskId := newtype_uuid_id "TaskId"

variable {name : String}

namespace newtype_uuid_id

/-- A time-ordered identifier, of the millisecond and the random bits that the
    generator takes from its surroundings. -/
def new [V7] (millis : Nat) (random : BitVec 74) : newtype_uuid_id name := ⟨now_v7 millis random⟩

def default [V7] (millis : Nat) (random : BitVec 74) : newtype_uuid_id name := new millis random

/-- `Display` -/
def to_string (self : newtype_uuid_id name) : String := self.inner.to_string

def from_str [Parser] (s : String) : Option (newtype_uuid_id name) := mk <$> parse_str s

/-- Identifiers are compared like the UUIDs they wrap. -/
instance : LT (newtype_uuid_id name) := ⟨fun a b => a.inner < b.inner⟩

instance (a b : newtype_uuid_id name) : Decidable (a < b) :=
  inferInstanceAs (Decidable (a.inner < b.inner))

end newtype_uuid_id

instance : Serialize (newtype_uuid_id name) where
  serialize self := .ok (.newtype_struct (.str self.inner.to_string))

instance [Parser] : Deserialize (newtype_uuid_id name) where
  deserialize j := newtype_uuid_id.mk <$> deserialize j

instance {R : Json → Json → Prop} [Disturbance R] [Parser] : Survives R (newtype_uuid_id name) :=
  survives_of_scalar (fun _ => rfl) (fun _ => trivial) (fun self => by
    simp only [Data.to_json, deserialize, Parser.parse_str_to_string, result.map_ok])

instance : NeverNull (newtype_uuid_id name) where
  ne_null h := by
    cases h
    simp [Data.to_json]

instance : Flat (newtype_uuid_id name) := flat_of_scalar (fun _ => rfl) (fun _ => trivial)

end jiezi_cloud_core.types
