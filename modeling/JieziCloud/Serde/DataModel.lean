import JieziCloud.Json.Text.Format

open json result

namespace serde

/-- Errors of both directions, under the constructors of serde's error traits. -/
inductive Error where
  | custom (message : String)
  | invalid_type (expected : String)
  | invalid_value (expected : String)
  | invalid_length (length : Nat) (expected : String)
  | unknown_variant (variant : String) (expected : List String)
  | missing_field (field : String)
  | duplicate_field (field : String)
  | unreadable (error : ParseError)
  deriving DecidableEq

/-- The values of serde's data model that the types of a crate serialize to,
    before any format has seen them. -/
inductive Data where
  | bool (value : Bool)
  | int (value : Integer)
  | str (value : String)
  | unit
  | none
  | some (value : Data)
  | seq (items : List Data)
  | map (entries : List (String × Data))
  | newtype_struct (value : Data)
  | struct (fields : List (String × Data))
  | unit_variant (variant : String)

mutual

/-- The JSON serializer: options and newtypes leave no trace of their own, and
    a unit variant is its name. -/
def Data.to_json : Data → Json
  | .bool value => .bool value
  | .int value => .num value
  | .str value => .str value
  | .unit | .none => .null
  | .some value | .newtype_struct value => value.to_json
  | .seq items => .arr (Data.items_json items)
  | .map members | .struct members => .obj (Data.members_json members)
  | .unit_variant variant => .str variant

def Data.items_json : List Data → List Json
  | [] => []
  | item :: items => item.to_json :: Data.items_json items

def Data.members_json : List (String × Data) → List (String × Json)
  | [] => []
  | (key, value) :: members => (key, value.to_json) :: Data.members_json members

end

/-- The members of a serialized struct or map as a JSON object lists them. -/
def document (members : List (String × Data)) : List (String × Json) :=
  members.map fun member => (member.1, member.2.to_json)

@[simp] theorem document_nil : document [] = [] := rfl

@[simp] theorem document_cons (member : String × Data) (members : List (String × Data)) :
    document (member :: members) = (member.1, member.2.to_json) :: document members := rfl

/-- The serializer has no state: every item is written as it would be on its own.
    -/
theorem Data.items_json_eq_map (items : List Data) :
    Data.items_json items = items.map Data.to_json := by
  induction items with
  | nil => rfl
  | cons item items ih => rw [Data.items_json, ih, List.map_cons]

theorem Data.members_json_eq_document (members : List (String × Data)) :
    Data.members_json members = document members := by
  induction members with
  | nil => rfl
  | cons member members ih => rw [Data.members_json, ih, document_cons]

/-- A struct is an object of its fields, in their declared order. -/
@[simp] theorem Data.to_json_struct (fields : List (String × Data)) :
    (Data.struct fields).to_json = .obj (document fields) := by
  rw [Data.to_json, Data.members_json_eq_document]

/-- A map is an object of its entries, which the document does not tell from a
    struct. -/
@[simp] theorem Data.to_json_map (entries : List (String × Data)) :
    (Data.map entries).to_json = .obj (document entries) := by
  rw [Data.to_json, Data.members_json_eq_document]

@[simp] theorem Data.to_json_seq (items : List Data) :
    (Data.seq items).to_json = .arr (items.map Data.to_json) := by
  rw [Data.to_json, Data.items_json_eq_map]

class Serialize (A : Type) where
  serialize : A → Except Error Data

/-- `missing_field` is what a struct that lacks the member decodes it to: an
    error, except for the types that can do without one. -/
class Deserialize (A : Type) where
  deserialize : Json → Except Error A
  missing_field (field : String) : Except Error A := .error (.missing_field field)

export Serialize (serialize)
export Deserialize (deserialize)

/-- The serialized form of a value as a JSON document. -/
def to_document {A : Type} [Serialize A] (a : A) : Except Error Json :=
  Data.to_json <$> serialize a

/-- The nesting that `from_str` accepts. `to_string` has no such limit. -/
abbrev recursion_limit : Nat := 127

def to_string {A : Type} [Serialize A] [TextFormat recursion_limit] (a : A) :
    Except Error String :=
  TextFormat.write recursion_limit <$> to_document a

/-- The text as a whole is parsed first, and its document decoded. Numbers are
    64-bit integers, and a member that the type has no field for is parsed under
    the limit like any other, although the crate skips over such members. -/
def from_str {A : Type} [Deserialize A] [TextFormat recursion_limit] (text : String) :
    Except Error A :=
  match TextFormat.parse recursion_limit text with
  | .ok document => deserialize document
  | .error error => .error (.unreadable error)

/-- The value has a text, and reading that text has this outcome. -/
def Rereads {A : Type} [Serialize A] [Deserialize A] [TextFormat recursion_limit] (a : A)
    (outcome : Except Error A) : Prop :=
  ∃ text, to_string a = .ok text ∧ from_str text = outcome

/-- Reading back has one outcome, since writing and reading are functions. -/
theorem Rereads.unique {A : Type} [Serialize A] [Deserialize A] [TextFormat recursion_limit] {a : A}
    {left right : Except Error A} (hleft : Rereads a left) (hright : Rereads a right) :
    left = right := by
  obtain ⟨text, htext, rfl⟩ := hleft
  obtain ⟨text', htext', rfl⟩ := hright
  rw [htext, Except.ok.injEq] at htext'
  rw [htext']

/-- What is serialized has a document. No value fails between the two. -/
theorem to_document_eq_ok {A : Type} [Serialize A] {a : A} {data : Data}
    (h : serialize a = .ok data) : to_document a = .ok data.to_json := by
  rw [to_document, h, map_ok]

/-- What is serialized has a text, however deeply it nests. -/
theorem to_string_eq_ok {A : Type} [Serialize A] [TextFormat recursion_limit] {a : A} {data : Data}
    (h : serialize a = .ok data) :
    to_string a = .ok (TextFormat.write recursion_limit data.to_json) := by
  rw [to_string, to_document_eq_ok h, map_ok]

/-- Reading a text decodes the document that it spells, as long as the text is
    not refused for its nesting. -/
theorem from_str_of_spells {A : Type} [Deserialize A] [TextFormat recursion_limit] {text : String}
    {document : Json} (hspells : TextFormat.Spells recursion_limit text document)
    (h : document.depth ≤ recursion_limit) : from_str (A := A) text = deserialize document := by
  rw [from_str, TextFormat.parse_of_spells hspells, if_pos h]

/-- A text that nests too deeply is refused for it, whatever it is to be read
    as. -/
theorem from_str_of_spells_of_lt {A : Type} [Deserialize A] [TextFormat recursion_limit]
    {text : String} {document : Json} (hspells : TextFormat.Spells recursion_limit text document)
    (h : recursion_limit < document.depth) :
    from_str (A := A) text = .error (.unreadable .recursion_limit_exceeded) := by
  rw [from_str, TextFormat.parse_of_spells hspells, if_neg (Nat.not_le.mpr h)]

/-- The written text is one of those that spell the document. -/
theorem from_str_write {A : Type} [Deserialize A] [TextFormat recursion_limit] {document : Json}
    (h : document.depth ≤ recursion_limit) :
    from_str (A := A) (TextFormat.write recursion_limit document) = deserialize document :=
  from_str_of_spells (TextFormat.spells_write document) h

/-- A document that nests too deeply is written all the same, into a text that
    nobody reads. -/
theorem from_str_write_of_lt {A : Type} [Deserialize A] [TextFormat recursion_limit] {document : Json}
    (h : recursion_limit < document.depth) :
    from_str (A := A) (TextFormat.write recursion_limit document) =
      .error (.unreadable .recursion_limit_exceeded) :=
  from_str_of_spells_of_lt (TextFormat.spells_write document) h

end serde
