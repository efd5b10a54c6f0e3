import JieziCloud.Serde.Primitives
import Mathlib.Logic.Equiv.Defs

open json result

namespace serde

/-- One field of a derived struct with the attributes it carries. `missing` is
    what the decoder makes of its absence when no default is given. -/
structure Field (A : Type) where
  name : String
  serialize : A → Except Error Data
  deserialize : Json → Except Error A
  missing : Except Error A
  default : Option A
  skip_serializing : Bool

/-- A field without attributes. -/
def field {A : Type} [Serialize A] [Deserialize A] (name : String) : Field A where
  name
  serialize := serialize
  deserialize := deserialize
  missing := Deserialize.missing_field name
  default := none
  skip_serializing := false

/-- `#[serde(default)]`, with the value that `Default` gives. -/
def Field.or_default {A : Type} (self : Field A) (value : A) : Field A :=
  { self with default := some value }

/-- `#[serde(skip_serializing)]` -/
def Field.unserialized {A : Type} (self : Field A) : Field A :=
  { self with skip_serializing := true }

/-- A field of a type that decodes buffered content in a way of its own. -/
def Field.buffered {A : Type} (self : Field A) (from_content : Json → Except Error A) : Field A :=
  { self with deserialize := from_content }

def Field.absent {A : Type} (self : Field A) : Except Error A :=
  match self.default with
  | some value => .ok value
  | none => self.missing

def Field.filled_or_absent {A : Type} (self : Field A) : Option A → Except Error A
  | some a => .ok a
  | none => self.absent

/-- The fields of a struct in their declared order, indexed by the tuple of
    their values. -/
inductive Fields : Type → Type 1 where
  | nil : Fields Unit
  | cons {A B : Type} (head : Field A) (rest : Fields B) : Fields (A × B)

def Fields.names {B : Type} : Fields B → List String
  | .nil => []
  | .cons head rest => head.name :: rest.names

def Fields.serialize {B : Type} : Fields B → B → Except Error (List (String × Data))
  | .nil, _ => .ok []
  | .cons head rest, (a, row) =>
    if head.skip_serializing then rest.serialize row
    else do
      let value ← head.serialize a
      let members ← rest.serialize row
      .ok ((head.name, value) :: members)

/-- The decoder's variables while it visits a map, one option a field. -/
def Fields.Slots {B : Type} : Fields B → Type
  | .nil => Unit
  | @Fields.cons A _ _ rest => Option A × rest.Slots

def Fields.vacant {B : Type} : (self : Fields B) → self.Slots
  | .nil => ()
  | .cons _ rest => (none, rest.vacant)

/-- One entry of the map. A name that no field has is ignored, and a field that
    has been seen before is an error. -/
def Fields.visit_entry {B : Type} : (self : Fields B) → self.Slots → String × Json →
    Except Error self.Slots
  | .nil => fun slots _ => .ok slots
  | @Fields.cons A _ head rest => fun ((slot, slots) : Option A × rest.Slots) entry =>
    if entry.1 = head.name then
      match slot with
      | some _ => .error (.duplicate_field head.name)
      | none => do
        let a ← head.deserialize entry.2
        .ok (some a, slots)
    else do
      let slots ← rest.visit_entry slots entry
      .ok (slot, slots)

/-- What the decoder returns after the last entry. -/
def Fields.finish {B : Type} : (self : Fields B) → self.Slots → Except Error B
  | .nil => fun _ => .ok ()
  | @Fields.cons A _ head rest => fun ((slot, slots) : Option A × rest.Slots) => do
    let a ← head.filled_or_absent slot
    let row ← rest.finish slots
    .ok (a, row)

def Fields.visit_map {B : Type} (self : Fields B) (entries : List (String × Json)) :
    Except Error B := do
  let slots ← entries.foldlM self.visit_entry self.vacant
  self.finish slots

/-- A struct given as an array has its fields in order. Only the fields with a
    default may be left out, and nothing may follow the last one: `surplus` is
    the error for that many fields with that many items behind them. -/
def Fields.visit_seq {B : Type} (expected : String) (surplus : Nat → Nat → Error) :
    Fields B → Nat → List Json → Except Error B
  | .nil, _, [] => .ok ()
  | .nil, index, items => .error (surplus index items.length)
  | .cons head rest, index, [] =>
    match head.default with
    | some value => do
      let row ← rest.visit_seq expected surplus (index + 1) []
      .ok (value, row)
    | none => .error (.invalid_length index expected)
  | .cons head rest, index, item :: items => do
    let a ← head.deserialize item
    let row ← rest.visit_seq expected surplus (index + 1) items
    .ok (a, row)

def elements : Nat → String
  | 1 => " with 1 element"
  | count => " with " ++ toString count ++ " elements"

def Fields.visit {B : Type} (self : Fields B) (expected : String) (surplus : Nat → Nat → Error) :
    Json → Except Error B
  | .obj entries => self.visit_map entries
  | .arr items => self.visit_seq (expected ++ elements self.names.length) surplus 0 items
  | _ => .error (.invalid_type expected)

/-- From a text, whose reader expects the array to end. -/
def Fields.deserialize {B : Type} (self : Fields B) (expected : String) (j : Json) : Except Error B :=
  self.visit expected (fun _ _ => .unreadable .trailing_characters) j

/-- The items of buffered content that have been taken. -/
def elements_in_sequence : Nat → String
  | 1 => "1 element in sequence"
  | count => toString count ++ " elements in sequence"

def surplus_content (taken left : Nat) : Error :=
  .invalid_length (taken + left) (elements_in_sequence taken)

/-- From content that has been buffered, whose items have been counted. -/
def Fields.from_content {B : Type} (self : Fields B) (expected : String) (j : Json) : Except Error B :=
  self.visit expected surplus_content j

/-- A struct type with both traits derived. -/
structure Struct (S B : Type) where
  expected : String
  fields : Fields B
  row : S ≃ B

def Struct.serialize {S B : Type} (self : Struct S B) (s : S) : Except Error Data :=
  .struct <$> self.fields.serialize (self.row s)

def Struct.deserialize {S B : Type} (self : Struct S B) (j : Json) : Except Error S :=
  self.row.symm <$> self.fields.deserialize self.expected j

end serde
