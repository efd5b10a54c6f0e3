import JieziCloud.Models.File.Builder
import JieziCloud.Models.File.RoundTrip

open calls chrono jiezi_cloud_core.types json result serde uuid

namespace jiezi_cloud_core.models.file

open FileNodeBuilder

variable {Utc : Type}

/-- The calls that set the fields of a node, as far as it has them. -/
def FileNode.calls (self : FileNode Utc) : List Call :=
  self.parent_id.toList.map .parent_id ++ self.mime_type.toList.map .mime_type ++
    self.content_hash.toList.map .content_hash ++
    [.id self.id, .space_id self.space_id, .owner_id self.owner_id, .name self.name,
      .node_type self.node_type, .size self.size, .metadata self.metadata]

/-- A builder that has been told every field of a node holds the node, and nothing
    of what a new builder holds. -/
theorem FileNode.after_calls (self : FileNode Utc) : after self.calls =
    { id := some self.id
      parent_id := self.parent_id
      space_id := some self.space_id
      owner_id := some self.owner_id
      name := some self.name
      node_type := some self.node_type
      size := self.size
      mime_type := self.mime_type
      content_hash := self.content_hash
      metadata := self.metadata } := by
  unfold calls
  cases self.parent_id <;> cases self.mime_type <;> cases self.content_hash <;> rfl

theorem FileNode.is_deleted_eq_false_iff (self : FileNode Utc) :
    self.is_deleted = false ↔ self.deleted_at = none := by
  rw [is_deleted, Option.isSome_eq_false_iff, Option.isNone_iff_eq_none]

section builds

variable [V7]

/-- The nodes that some calls of the setters build at a moment are those of
    this moment that have neither been changed nor deleted since. -/
theorem FileNodeBuilder.buildable_iff (node : FileNode Utc) (now : DateTime Utc) (millis : Nat)
    (random : BitVec 74) :
    (∃ made, (after made).build now millis random = .ok node) ↔
      node.created_at = now ∧ node.updated_at = now ∧ node.is_deleted = false := by
  rw [node.is_deleted_eq_false_iff]
  constructor
  · rintro ⟨made, hbuild⟩
    obtain ⟨_, _, _, _, hnode⟩ := build_eq_ok_iff.mp hbuild
    rw [← hnode]
    exact ⟨rfl, rfl, rfl⟩
  · rintro ⟨hcreated_at, hupdated_at, hdeleted_at⟩
    refine ⟨node.calls, ?_⟩
    rw [build_eq_ok_iff, node.after_calls]
    refine ⟨rfl, rfl, rfl, rfl, ?_⟩
    rw [← hcreated_at, Option.getD_some]
    cases node
    simp_all

variable [TimeLine Utc] [uuid.Parser] [TextFormat recursion_limit]

end builds

end jiezi_cloud_core.models.file
