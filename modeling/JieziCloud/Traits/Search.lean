import JieziCloud.Serde.Nesting
import JieziCloud.Types.Ids
import JieziCloud.Types.Pagination

open jiezi_cloud_core.types json serde

namespace jiezi_cloud_core.types.PageRequest

def new (page per_page : UInt32) : PageRequest := { page, per_page }

def default : PageRequest := { page := 1, per_page := 20 }

/-- A request is one object of two numbers. -/
theorem nestsAtMost (self : PageRequest) : NestsAtMost serialize 1 self :=
  derived.nestsAtMost (by simp [derived])

end jiezi_cloud_core.types.PageRequest

namespace jiezi_cloud_core.traits.search

/-- What is submitted to the index for one file. -/
structure SearchDocument where
  file_id : FileId
  name : String
  content : Option String
  tags : List String
  mime_type : Option String
  deriving DecidableEq

namespace SearchDocument

variable [uuid.Parser]

def derived : Struct SearchDocument
    (FileId × String × Option String × List String × Option String × Unit) where
  expected := "struct SearchDocument"
  fields := .cons (field "file_id") <| .cons (field "name") <| .cons (field "content") <|
    .cons ((field "tags").or_default []) <| .cons (field "mime_type") .nil
  row :=
    { toFun self := (self.file_id, self.name, self.content, self.tags, self.mime_type, ())
      invFun := fun (file_id, name, content, tags, mime_type, ()) =>
        { file_id, name, content, tags, mime_type } }

instance : Serialize SearchDocument := ⟨derived.serialize⟩

instance : Deserialize SearchDocument where
  deserialize := derived.deserialize

instance {R : Json → Json → Prop} [Disturbance R] : Survives R SearchDocument where
  survives := derived.survives (of_decide_eq_true rfl)
    ⟨survive_field _, survive_field _, survive_field _, survive_field "tags", survive_field _,
      trivial⟩ rfl

/-- The tags of a search document are one level below it. -/
theorem nestsAtMost (self : SearchDocument) : NestsAtMost serialize 2 self := by
  have htags : NestsAtMost serialize 1 self.tags :=
    list_nestsAtMost fun tag _ => Flat.nestsAtMost tag 0
  exact derived.nestsAtMost (by simp [derived, htags])

end SearchDocument

def default_page : UInt32 := 1

def default_per_page : UInt32 := 20

/-- A query of a client. Only the query string has to be given. -/
structure SearchQuery where
  q : String
  page : UInt32
  per_page : UInt32
  mime_filter : Option String
  deriving DecidableEq

namespace SearchQuery

def derived : Struct SearchQuery (String × UInt32 × UInt32 × Option String × Unit) where
  expected := "struct SearchQuery"
  fields := .cons (field "q") <| .cons ((field "page").or_default default_page) <|
    .cons ((field "per_page").or_default default_per_page) <| .cons (field "mime_filter") .nil
  row :=
    { toFun self := (self.q, self.page, self.per_page, self.mime_filter, ())
      invFun := fun (q, page, per_page, mime_filter, ()) => { q, page, per_page, mime_filter } }

instance : Serialize SearchQuery := ⟨derived.serialize⟩

instance : Deserialize SearchQuery where
  deserialize := derived.deserialize

theorem names : derived.fields.names.Nodup := of_decide_eq_true rfl

instance {R : Json → Json → Prop} [Disturbance R] : Survives R SearchQuery where
  survives := derived.survives names
    ⟨survive_field _, survive_field "page", survive_field "per_page", survive_field _, trivial⟩ rfl

/-- A query is one object. -/
theorem nestsAtMost (self : SearchQuery) : NestsAtMost serialize 1 self :=
  derived.nestsAtMost (by simp [derived])

end SearchQuery

end jiezi_cloud_core.traits.search
