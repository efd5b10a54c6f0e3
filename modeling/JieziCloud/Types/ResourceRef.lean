import JieziCloud.Serde.Nesting
import JieziCloud.Serde.Tagged.Survives
import JieziCloud.Types.Ids

open json result serde

namespace jiezi_cloud_core.types

/-- A reference to a resource on which an action may be checked. -/
inductive ResourceRef where
  | File (id : FileId)
  | Space (id : SpaceId)
  | Share (id : ShareId)
  | System
  deriving DecidableEq

namespace ResourceRef

variable [uuid.Parser]

def derived : Tagged ResourceRef where
  container := "ResourceRef"
  tag := "kind"
  variants := [.newtype "File" File, .newtype "Space" Space, .newtype "Share" Share,
    .unit "System" System]
  distinct := by
    change (["File", "Space", "Share", "System"].map snake_case).Nodup
    decide

instance : Serialize ResourceRef where
  serialize
    | .File id => derived.serialize_newtype "File" id
    | .Space id => derived.serialize_newtype "Space" id
    | .Share id => derived.serialize_newtype "Share" id
    | .System => derived.serialize_unit "System"

instance : Deserialize ResourceRef where
  deserialize := derived.deserialize

/-- The content of a reference is the text of an identifier, which has no place
    for the tag. -/
theorem serialize_newtype_id {name : String} (identifier : String) (id : newtype_uuid_id name) :
    derived.serialize_newtype identifier id = .error (.custom
      ("cannot serialize tagged newtype variant ResourceRef::" ++ identifier ++ " containing a string")) := by
  rw [derived.serialize_newtype_of_str identifier rfl]
  simp [Tagged.refuse, derived, String.append_assoc]

/-- Only the reference without content is serialized. The others would have to put
    a tag into a string. -/
theorem eq_system_of_serialize {self : ResourceRef} {data : Data} (h : serialize self = .ok data) :
    self = .System := by
  cases self with
  | File id => cases (serialize_newtype_id "File" id).symm.trans h
  | Space id => cases (serialize_newtype_id "Space" id).symm.trans h
  | Share id => cases (serialize_newtype_id "Share" id).symm.trans h
  | System => rfl

variable [TextFormat recursion_limit]

theorem eq_system_of_to_string {self : ResourceRef} {text : String}
    (h : to_string self = .ok text) : self = .System := by
  obtain ⟨document, hdocument, _⟩ := map_eq_ok_iff.mp h
  obtain ⟨data, hdata, _⟩ := map_eq_ok_iff.mp hdocument
  exact eq_system_of_serialize hdata

/-- The reference to the system is read back from its tag. -/
theorem rereads_system : Rereads ResourceRef.System (.ok ResourceRef.System) := by
  obtain ⟨data, hdata, hdecode⟩ :=
    derived.survives_unit (R := Eq) "System" System (by simp [derived])
  have hdepth : NestsAtMost serialize recursion_limit System := by
    intro _ h
    exact derived.unit_nestsAtMost h
  rw [← hdecode _ rfl]
  exact rereads_of_nestsAtMost hdata hdepth

/-- A reference has a text, the text is read back as the reference, and no
    other reference has the same text. -/
def RoundTrips (self : ResourceRef) : Prop :=
  Rereads self (.ok self) ∧ ∀ other : ResourceRef, to_string other = to_string self → other = self

/-- References to the system round-trip. The others have no text at all, since an
    internally tagged enum has no place for its tag in the string of an
    identifier. -/
theorem roundTrips_iff_eq_system (self : ResourceRef) : self.RoundTrips ↔ self = .System := by
  constructor
  · rintro ⟨⟨text, htext, _⟩, _⟩
    exact eq_system_of_to_string htext
  · rintro rfl
    refine ⟨rereads_system, ?_⟩
    intro other hother
    obtain ⟨text, htext, _⟩ := rereads_system
    exact eq_system_of_to_string (hother.trans htext)

end ResourceRef

/-- A reference to a file has no text at all, and so is not read back from one. -/
theorem file_ref_not_roundTrips :
    ¬@ResourceRef.RoundTrips uuid.hyphenatedParser (compact recursion_limit)
      (.File ⟨.repeated 0⟩) := by
  let _ := uuid.hyphenatedParser
  let _ := compact recursion_limit
  rintro ⟨⟨text, htext, _⟩, _⟩
  cases ResourceRef.eq_system_of_to_string htext

end jiezi_cloud_core.types
