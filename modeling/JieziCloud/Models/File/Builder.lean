import JieziCloud.LastCall
import JieziCloud.Models.File

open calls chrono jiezi_cloud_core.types result serde uuid

namespace jiezi_cloud_core.models.file

def FileMetadata.default : FileMetadata where
  tags := []
  extra := HashMap.new
  is_indexed := false
  has_thumbnail := false

/-- Nothing has been entered into the metadata. -/
structure FileMetadata.IsEmpty (metadata : FileMetadata) : Prop where
  tags : metadata.tags = []
  extra : ∀ key, metadata.extra.get key = none
  is_indexed : metadata.is_indexed = false
  has_thumbnail : metadata.has_thumbnail = false

/-- What a new builder holds for the metadata is empty metadata. -/
theorem FileMetadata.default_isEmpty : FileMetadata.default.IsEmpty where
  tags := rfl
  extra _ := rfl
  is_indexed := rfl
  has_thumbnail := rfl

/-- The fields of a node that have a setter, as far as they have been set. -/
structure FileNodeBuilder where
  id : Option FileId
  parent_id : Option FileId
  space_id : Option SpaceId
  owner_id : Option UserId
  name : Option String
  node_type : Option NodeType
  size : UInt64
  mime_type : Option MimeType
  content_hash : Option String
  metadata : FileMetadata

namespace FileNodeBuilder

def new : FileNodeBuilder where
  id := none
  parent_id := none
  space_id := none
  owner_id := none
  name := none
  node_type := none
  size := 0
  mime_type := none
  content_hash := none
  metadata := .default

/-- A call of one of the setters. -/
inductive Call where
  | id (id : FileId)
  | parent_id (parent_id : FileId)
  | space_id (space_id : SpaceId)
  | owner_id (owner_id : UserId)
  | name (name : String)
  | node_type (node_type : NodeType)
  | size (size : UInt64)
  | mime_type (mime_type : MimeType)
  | content_hash (hash : String)
  | metadata (metadata : FileMetadata)

/-- The setters, each with what it does to the builder. -/
def call (self : FileNodeBuilder) : Call → FileNodeBuilder
  | .id id => { self with id := some id }
  | .parent_id parent_id => { self with parent_id := some parent_id }
  | .space_id space_id => { self with space_id := some space_id }
  | .owner_id owner_id => { self with owner_id := some owner_id }
  | .name name => { self with name := some name }
  | .node_type node_type => { self with node_type := some node_type }
  | .size size => { self with size }
  | .mime_type mime_type => { self with mime_type := some mime_type }
  | .content_hash hash => { self with content_hash := some hash }
  | .metadata metadata => { self with metadata }

/-- `Option::expect`: where there is no value, a panic with the message. -/
def expect {A : Type} (message : String) : Option A → Except String A
  | some a => .ok a
  | none => .error message

theorem expect_eq_ok_iff {A : Type} {message : String} {self : Option A} {a : A} :
    expect message self = .ok a ↔ self = some a := by
  cases self <;> simp [expect]

/-- The node of the fields set so far. A panic is its message. The instant, and
    what a fresh identifier is made of, are those of the moment of the call. -/
def build {Utc : Type} [V7] (self : FileNodeBuilder) (now : DateTime Utc) (millis : Nat)
    (random : BitVec 74) : Except String (FileNode Utc) := do
  let space_id ← expect "space_id is required" self.space_id
  let owner_id ← expect "owner_id is required" self.owner_id
  let name ← expect "name is required" self.name
  let node_type ← expect "node_type is required" self.node_type
  .ok
    { id := self.id.getD (newtype_uuid_id.default millis random)
      parent_id := self.parent_id
      space_id
      owner_id
      name
      node_type
      size := self.size
      mime_type := self.mime_type
      content_hash := self.content_hash
      created_at := now
      updated_at := now
      deleted_at := none
      metadata := self.metadata }

/-- The names of the setters, each with the type of its argument. -/
inductive Setter : Type → Type where
  | id : Setter FileId
  | parent_id : Setter FileId
  | space_id : Setter SpaceId
  | owner_id : Setter UserId
  | name : Setter String
  | node_type : Setter NodeType
  | size : Setter UInt64
  | mime_type : Setter MimeType
  | content_hash : Setter String
  | metadata : Setter FileMetadata

/-- The argument of a call, if it is one of this setter. -/
def Setter.argument : {A : Type} → Setter A → Call → Option A
  | _, .id, .id a => some a
  | _, .parent_id, .parent_id a => some a
  | _, .space_id, .space_id a => some a
  | _, .owner_id, .owner_id a => some a
  | _, .name, .name a => some a
  | _, .node_type, .node_type a => some a
  | _, .size, .size a => some a
  | _, .mime_type, .mime_type a => some a
  | _, .content_hash, .content_hash a => some a
  | _, .metadata, .metadata a => some a
  | _, _, _ => none

/-- What the builder holds of a setter's argument. -/
def Setter.read : {A : Type} → Setter A → FileNodeBuilder → Option A
  | _, .id, self => self.id
  | _, .parent_id, self => self.parent_id
  | _, .space_id, self => self.space_id
  | _, .owner_id, self => self.owner_id
  | _, .name, self => self.name
  | _, .node_type, self => self.node_type
  | _, .size, self => some self.size
  | _, .mime_type, self => self.mime_type
  | _, .content_hash, self => self.content_hash
  | _, .metadata, self => some self.metadata

section setters

variable {A : Type}

/-- Each call writes the field of its own setter and leaves the other nine. -/
theorem Setter.read_call (setter : Setter A) (self : FileNodeBuilder) (made : Call) :
    setter.read (self.call made) = (setter.argument made).or (setter.read self) := by
  cases setter <;> cases made <;> rfl

/-- The builder after these calls, from a new one on. -/
def after (made : List Call) : FileNodeBuilder := made.foldl call new

/-- The argument of the last call of this setter. -/
def Setter.last (setter : Setter A) (made : List Call) : Option A :=
  calls.last setter.argument made

def Setter.Called (setter : Setter A) (made : List Call) : Prop :=
  ∃ call ∈ made, (setter.argument call).isSome = true

/-- A setter has no last argument exactly when it was never called. -/
theorem Setter.last_eq_none_iff (setter : Setter A) (made : List Call) :
    setter.last made = none ↔ ¬setter.Called made := by
  rw [Setter.last, calls.last_eq_none_iff, Setter.Called]
  simp

/-- After any calls the builder holds the last argument of each setter, or
    what a new builder holds. -/
theorem Setter.read_after (setter : Setter A) (made : List Call) :
    setter.read (after made) = (setter.last made).or (setter.read new) :=
  calls.read_foldl setter.read_call made new

/-- A builder is determined by what it holds of each setter: it has no other
    fields. -/
theorem eq_of_read {self other : FileNodeBuilder}
    (h : ∀ {A : Type} (setter : Setter A), setter.read self = setter.read other) : self = other := by
  have hsize : self.size = other.size := Option.some.inj (h .size)
  have hmetadata : self.metadata = other.metadata := Option.some.inj (h .metadata)
  have hid : self.id = other.id := h .id
  have hparent_id : self.parent_id = other.parent_id := h .parent_id
  have hspace_id : self.space_id = other.space_id := h .space_id
  have howner_id : self.owner_id = other.owner_id := h .owner_id
  have hname : self.name = other.name := h .name
  have hnode_type : self.node_type = other.node_type := h .node_type
  have hmime_type : self.mime_type = other.mime_type := h .mime_type
  have hcontent_hash : self.content_hash = other.content_hash := h .content_hash
  cases self
  cases other
  simp_all

/-- Every field that has a setter holds the last argument, or its default. No
    setter writes the field of another, so the order between different setters is
    lost. -/
theorem after_eq (made : List Call) : after made =
    { id := Setter.id.last made
      parent_id := Setter.parent_id.last made
      space_id := Setter.space_id.last made
      owner_id := Setter.owner_id.last made
      name := Setter.name.last made
      node_type := Setter.node_type.last made
      size := (Setter.size.last made).getD 0
      mime_type := Setter.mime_type.last made
      content_hash := Setter.content_hash.last made
      metadata := (Setter.metadata.last made).getD .default } := by
  apply eq_of_read
  intro A setter
  rw [setter.read_after]
  cases setter with
  | size =>
    simp only [Setter.read, new]
    cases Setter.size.last made <;> rfl
  | metadata =>
    simp only [Setter.read, new]
    cases Setter.metadata.last made <;> rfl
  | _ => exact Option.or_none

example : (after [.name "draft", .size 5, .name "documents"]).name = some "documents" := rfl

/-- The builder depends on the last arguments alone, not on the order of the
    calls. -/
theorem after_eq_of_last_eq {made other : List Call}
    (h : ∀ {A : Type} (setter : Setter A), setter.last other = setter.last made) :
    after other = after made := by
  simp only [after_eq, h]

end setters

section builds

variable {Utc : Type} [V7]

/-- A node is built when the four required fields are set, and it has them and
    the other fields of the builder. -/
theorem build_eq_ok_iff {self : FileNodeBuilder} {now : DateTime Utc} {millis : Nat}
    {random : BitVec 74} {node : FileNode Utc} :
    self.build now millis random = .ok node ↔
      self.space_id = some node.space_id ∧ self.owner_id = some node.owner_id ∧
        self.name = some node.name ∧ self.node_type = some node.node_type ∧
        { node with
          id := self.id.getD (newtype_uuid_id.default millis random), parent_id := self.parent_id,
          size := self.size, mime_type := self.mime_type, content_hash := self.content_hash,
          created_at := now, updated_at := now, deleted_at := none, metadata := self.metadata } =
            node := by
  unfold build
  simp only [bind_eq_ok_iff, expect_eq_ok_iff, Except.ok.injEq]
  constructor
  · rintro ⟨space_id, hspace_id, owner_id, howner_id, name, hname, node_type, hnode_type, rfl⟩
    exact ⟨hspace_id, howner_id, hname, hnode_type, rfl⟩
  · rintro ⟨hspace_id, howner_id, hname, hnode_type, hnode⟩
    exact ⟨_, hspace_id, _, howner_id, _, hname, _, hnode_type, hnode⟩

/-- Building stops at the first required field that has not been set, with a
    message that names it. -/
theorem build_eq_error_iff {self : FileNodeBuilder} {now : DateTime Utc} {millis : Nat}
    {random : BitVec 74} {message : String} :
    self.build now millis random = .error message ↔
      (self.space_id = none ∧ message = "space_id is required") ∨
      (self.space_id ≠ none ∧ self.owner_id = none ∧ message = "owner_id is required") ∨
      (self.space_id ≠ none ∧ self.owner_id ≠ none ∧ self.name = none ∧
        message = "name is required") ∨
      (self.space_id ≠ none ∧ self.owner_id ≠ none ∧ self.name ≠ none ∧ self.node_type = none ∧
        message = "node_type is required") := by
  unfold build
  cases self.space_id with
  | none => simp [expect, eq_comm]
  | some space_id =>
    cases self.owner_id with
    | none => simp [expect, eq_comm]
    | some owner_id =>
      cases self.name with
      | none => simp [expect, eq_comm]
      | some name => cases self.node_type <;> simp [expect, eq_comm]

/-- Building panics exactly when one of the four required fields has not been set,
    whatever the moment. -/
theorem build_panics_iff (self : FileNodeBuilder) (now : DateTime Utc) (millis : Nat)
    (random : BitVec 74) :
    (∃ message, self.build now millis random = .error message) ↔
      self.space_id = none ∨ self.owner_id = none ∨ self.name = none ∨ self.node_type = none := by
  simp only [build_eq_error_iff, exists_or, exists_and_left, exists_eq, and_true]
  tauto

/-- At another moment the same builder builds the same node, up to the time and
    an identifier that was not set. -/
theorem build_at {self : FileNodeBuilder} {now : DateTime Utc} {millis : Nat} {random : BitVec 74}
    {node : FileNode Utc} (h : self.build now millis random = .ok node) (later : DateTime Utc)
    (laterMillis : Nat) (other : BitVec 74) :
    self.build later laterMillis other = .ok
      { node with
        id := self.id.getD (newtype_uuid_id.default laterMillis other)
        created_at := later
        updated_at := later } := by
  rw [build_eq_ok_iff] at h ⊢
  obtain ⟨hspace_id, howner_id, hname, hnode_type, hnode⟩ := h
  refine ⟨hspace_id, howner_id, hname, hnode_type, ?_⟩
  rw [← hnode]

end builds

end FileNodeBuilder

open FileNodeBuilder

variable {Utc : Type}

variable [V7]

/-- The node has, in every field with a setter, the argument of the last call
    of the setter. Where there was none, the identifier is a version 7 UUID of
    the moment, the metadata is empty, and the other fields are so as well. -/
structure FileNode.BuiltFrom (node : FileNode Utc) (made : List Call) (now : DateTime Utc)
    (millis : Nat) (random : BitVec 74) : Prop where
  id : node.id = (Setter.id.last made).getD ⟨now_v7 millis random⟩
  parent_id : node.parent_id = Setter.parent_id.last made
  space_id : some node.space_id = Setter.space_id.last made
  owner_id : some node.owner_id = Setter.owner_id.last made
  name : some node.name = Setter.name.last made
  node_type : some node.node_type = Setter.node_type.last made
  size : node.size = (Setter.size.last made).getD 0
  mime_type : node.mime_type = Setter.mime_type.last made
  content_hash : node.content_hash = Setter.content_hash.last made
  metadata : ∀ metadata, Setter.metadata.last made = some metadata → node.metadata = metadata
  no_metadata : ¬Setter.metadata.Called made → node.metadata.IsEmpty
  created_at : node.created_at = node.updated_at
  updated_at : node.updated_at = now
  deleted_at : node.deleted_at = none

/-- Equality of all fields but the identifier and the times. -/
def FileNode.SameContent (self other : FileNode Utc) : Prop :=
  { self with id := other.id, created_at := other.created_at, updated_at := other.updated_at } =
    other

/-- Whatever is built has the last arguments, by the fields of the builder, and
    the default of a field only where its setter was never called. -/
theorem FileNodeBuilder.builtFrom_of_build {made : List Call} {now : DateTime Utc} {millis : Nat}
    {random : BitVec 74} {node : FileNode Utc}
    (h : (after made).build now millis random = .ok node) :
    node.BuiltFrom made now millis random := by
  obtain ⟨hspace_id, howner_id, hname, hnode_type, hnode⟩ := build_eq_ok_iff.mp h
  rw [after_eq] at hspace_id howner_id hname hnode_type hnode
  rw [← hnode]
  exact
    { id := rfl
      parent_id := rfl
      space_id := hspace_id.symm
      owner_id := howner_id.symm
      name := hname.symm
      node_type := hnode_type.symm
      size := rfl
      mime_type := rfl
      content_hash := rfl
      metadata metadata hlast := by rw [hlast, Option.getD_some]
      no_metadata hcalled := by
        rw [← Setter.last_eq_none_iff] at hcalled
        rw [hcalled, Option.getD_none]
        exact FileMetadata.default_isEmpty
      created_at := rfl
      updated_at := rfl
      deleted_at := rfl }

/-- Without a call that sets it, the identifier is not one that another
    millisecond has seen. -/
theorem FileNodeBuilder.fresh_id {made other : List Call} (hmade : ¬Setter.id.Called made)
    (hother : ¬Setter.id.Called other) {now later : DateTime Utc} {millis laterMillis : Nat}
    {random laterRandom : BitVec 74} (hlt : millis < laterMillis) (hfits : laterMillis < 2 ^ 48)
    {node again : FileNode Utc} (hnode : (after made).build now millis random = .ok node)
    (hagain : (after other).build later laterMillis laterRandom = .ok again) :
    node.id ≠ again.id := by
  rw [← Setter.last_eq_none_iff] at hmade hother
  rw [(builtFrom_of_build hnode).id, (builtFrom_of_build hagain).id, hmade, hother,
    Option.getD_none, Option.getD_none]
  intro heq
  exact now_v7_ne hlt hfits random laterRandom (congrArg newtype_uuid_id.inner heq)

/-- What building after any calls amounts to: it panics exactly when a required
    setter was never called, it otherwise takes the last argument of each
    setter, the identifiers that it makes up are new in every millisecond, and
    nothing else of the calls counts. -/
structure FileNodeBuilder.BuildsLastCalls (Utc : Type) [V7] (made : List Call) : Prop where
  panics_iff : ∀ (now : DateTime Utc) (millis : Nat) (random : BitVec 74),
    (∃ message, (after made).build now millis random = .error message) ↔
      ¬Setter.space_id.Called made ∨ ¬Setter.owner_id.Called made ∨ ¬Setter.name.Called made ∨
        ¬Setter.node_type.Called made
  builds : ∀ (now : DateTime Utc) (millis : Nat) (random : BitVec 74) (node : FileNode Utc),
    (after made).build now millis random = .ok node →
      node.BuiltFrom made now millis random
  fresh : ∀ other : List Call, ¬Setter.id.Called made → ¬Setter.id.Called other →
    ∀ (now later : DateTime Utc) (millis laterMillis : Nat) (random laterRandom : BitVec 74)
      (node again : FileNode Utc), millis < laterMillis → laterMillis < 2 ^ 48 →
      (after made).build now millis random = .ok node →
        (after other).build later laterMillis laterRandom = .ok again → node.id ≠ again.id
  agrees : ∀ other : List Call,
    (∀ {A : Type} (setter : Setter A), setter.last other = setter.last made) →
      ∀ (now later : DateTime Utc) (millis laterMillis : Nat) (random laterRandom : BitVec 74)
        (node : FileNode Utc), (after made).build now millis random = .ok node →
        ∃ again, (after other).build later laterMillis laterRandom = .ok again ∧
          again.SameContent node ∧ (Setter.id.Called made → again.id = node.id)

/-- Any calls of the setters, in any order and however often, build the node of
    the last arguments, or panic for a required setter among those that were
    never called. -/
theorem FileNodeBuilder.buildsLastCalls (made : List Call) : BuildsLastCalls Utc made := by
  refine ⟨?_, ?_, ?_, ?_⟩
  · intro now millis random
    rw [build_panics_iff, after_eq]
    simp only [Setter.last_eq_none_iff]
  · intro now millis random node hbuild
    exact builtFrom_of_build hbuild
  · intro other hmade hother now later millis laterMillis random laterRandom node again hlt hfits
      hnode hagain
    exact fresh_id hmade hother hlt hfits hnode hagain
  · intro other hlast now later millis laterMillis random laterRandom node hbuild
    have hagain := build_at hbuild later laterMillis laterRandom
    rw [← after_eq_of_last_eq hlast] at hagain
    refine ⟨_, hagain, rfl, ?_⟩
    intro hcalled
    have hid := (builtFrom_of_build hbuild).id
    rw [after_eq, hlast]
    cases hset : Setter.id.last made with
    | none => exact absurd hcalled ((Setter.last_eq_none_iff .id made).mp hset)
    | some id =>
      rw [hset] at hid
      exact hid.symm

end jiezi_cloud_core.models.file
