import JieziCloud.PrefixFree
import JieziCloud.Types.ResourceRef

open code_words json serde uuid

namespace uuid

/-- The printed form determines the UUID, for every parser that reads what is
    printed would otherwise read two from one. -/
theorem Uuid.to_string_injective {self other : Uuid} (h : self.to_string = other.to_string) :
    self = other := by
  have hself := hyphenatedParser.parse_str_to_string self
  rw [h, hyphenatedParser.parse_str_to_string other, Option.some.injEq] at hself
  exact hself.symm

/-- Thirty-two digits and four hyphens, for every UUID. -/
theorem Uuid.length_hyphenated (self : Uuid) : self.hyphenated.length = 36 := by
  have hbytes : ∀ bytes : List UInt8, (bytes.flatMap hex.byte_chars).length = 2 * bytes.length := by
    intro bytes
    induction bytes with
    | nil => rfl
    | cons b bytes ih =>
      rw [List.flatMap_cons, List.length_append, ih, List.length_cons, hex.byte_chars]
      simp only [List.length_cons, List.length_nil]
      omega
  simp only [hyphenated, List.length_append, List.length_cons, hbytes, List.length_take,
    List.length_drop, self.length_bytes]
  decide

/-- Every text of a UUID is as long as the others. -/
theorem Uuid.to_string_prefixFree : PrefixFree fun self : Uuid => self.to_string.toList := by
  have hlength : ∀ self : Uuid, self.to_string.toList.length = 36 := by
    intro self
    rw [to_string, String.toList_ofList, self.length_hyphenated]
  apply prefixFree_of_length hlength
  intro self other h
  exact to_string_injective (String.toList_inj.mp h)

end uuid

namespace jiezi_cloud_core.types

/-- An action that a user may attempt to perform. -/
inductive Action where
  | Read
  | Write
  | Delete
  | Share
  | Admin
  deriving DecidableEq

namespace Action

def derived : UnitEnum Action where
  identifier
    | .Read => "Read"
    | .Write => "Write"
    | .Delete => "Delete"
    | .Share => "Share"
    | .Admin => "Admin"
  variants := [.Read, .Write, .Delete, .Share, .Admin]
  find_self e := by cases e <;> decide

instance : Serialize Action := ⟨derived.serialize⟩

instance : Deserialize Action where
  deserialize := derived.deserialize

instance {R : Json → Json → Prop} [Disturbance R] : Survives R Action := ⟨derived.survives⟩

instance : Flat Action := ⟨derived.nestsAtMost⟩

/-- `Debug`, the name of the variant as it stands in the code. -/
def debug (self : Action) : String := derived.identifier self

/-- No action is printed as the beginning of another. -/
theorem debug_prefixFree : PrefixFree fun self : Action => self.debug.toList := by
  apply prefixFree_of_starts
  intro a b
  cases a <;> cases b <;> decide

end Action

section identifiers

variable {name : String}

/-- `Debug` of an identifier, the name of its type around the UUID. -/
def newtype_uuid_id.debug (self : newtype_uuid_id name) : String :=
  name ++ "(" ++ self.inner.to_string ++ ")"

/-- Identifiers are printed at one length, so none begins another. -/
theorem newtype_uuid_id.to_string_prefixFree :
    PrefixFree fun self : newtype_uuid_id name => self.to_string.toList :=
  Uuid.to_string_prefixFree.comp fun a b (h : a.inner = b.inner) => by
    cases a
    cases b
    exact congrArg newtype_uuid_id.mk h

theorem newtype_uuid_id.debug_prefixFree :
    PrefixFree fun self : newtype_uuid_id name => self.debug.toList := by
  have htext : PrefixFree fun self : newtype_uuid_id name => self.to_string.toList :=
    to_string_prefixFree
  have hbetween := htext.between (name ++ "(").toList ")".toList
  simpa only [debug, to_string, String.toList_append, List.append_assoc] using hbetween

end identifiers

namespace ResourceRef

/-- `Debug` -/
def debug : ResourceRef → String
  | .File id => "File(" ++ id.debug ++ ")"
  | .Space id => "Space(" ++ id.debug ++ ")"
  | .Share id => "Share(" ++ id.debug ++ ")"
  | .System => "System"

/-- What `Debug` shows of a reference before its identifier. -/
inductive Opening where
  | File
  | Space
  | Share
  | System
  deriving DecidableEq

def Opening.text : Opening → String
  | .File => "File("
  | .Space => "Space("
  | .Share => "Share("
  | .System => "System"

def opening : ResourceRef → Opening
  | .File _ => .File
  | .Space _ => .Space
  | .Share _ => .Share
  | .System => .System

/-- What `Debug` shows after the opening. -/
def shown : ResourceRef → String
  | .File id => id.debug ++ ")"
  | .Space id => id.debug ++ ")"
  | .Share id => id.debug ++ ")"
  | .System => ""

/-- A reference is printed as the name of its kind, up to what its identifier
    adds. -/
theorem debug_eq (self : ResourceRef) : self.debug = self.opening.text ++ self.shown := by
  cases self <;> simp [debug, opening, Opening.text, shown, String.append_assoc]

/-- The kinds can be told apart where the identifier starts. -/
theorem Opening.text_prefixFree : PrefixFree fun self : Opening => self.text.toList := by
  apply prefixFree_of_starts
  intro a b
  cases a <;> cases b <;> decide

/-- The closing bracket ends an identifier, whatever follows it. -/
theorem id_debug_prefixFree {name : String} (id other : newtype_uuid_id name) {left right : List Char}
    (h : (id.debug ++ ")").toList ++ left = (other.debug ++ ")").toList ++ right) :
    id = other ∧ left = right := by
  have hdebug : PrefixFree fun self : newtype_uuid_id name => self.debug.toList :=
    newtype_uuid_id.debug_prefixFree
  rw [String.toList_append, String.toList_append] at h
  exact hdebug.between [] ")".toList id other h

/-- The opening tells whether an identifier follows, and of which type. -/
theorem debug_prefixFree : PrefixFree fun self : ResourceRef => self.debug.toList := by
  intro a b left right h
  simp only [debug_eq, String.toList_append, List.append_assoc] at h
  obtain ⟨hopening, hshown⟩ := Opening.text_prefixFree _ _ h
  cases a <;> cases b <;> cases hopening
  case System.System.refl => exact ⟨rfl, List.append_cancel_left hshown⟩
  all_goals
    obtain ⟨rfl, hrest⟩ := id_debug_prefixFree _ _ hshown
    exact ⟨rfl, hrest⟩

end ResourceRef

end jiezi_cloud_core.types
