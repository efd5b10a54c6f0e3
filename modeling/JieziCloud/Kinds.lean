import JieziCloud.Events
import JieziCloud.Models.Task
import JieziCloud.Serde.Tagged.Names

open jiezi_cloud_core.events jiezi_cloud_core.models.task json serde

namespace jiezi_cloud_core

/-- Each variant of an event is encoded under the name that it is decoded from,
    and none of its own fields takes the place of the tag. -/
theorem events.DomainEvent.keepNames [uuid.Parser] :
    ∀ variant ∈ DomainEvent.derived.variants, variant.KeepsName DomainEvent.derived.tag := by
  intro variant hmem
  simp only [derived, List.mem_cons, List.not_mem_nil, or_false] at hmem
  obtain rfl | rfl | rfl | rfl | rfl | rfl | rfl | rfl | rfl | rfl | rfl | rfl | rfl | rfl := hmem
  · exact FileUploaded_variant.keepsName derived (fun _ => rfl) (of_decide_eq_true rfl)
  · exact FileDeleted_variant.keepsName derived (fun _ => rfl) (of_decide_eq_true rfl)
  · exact FilePermanentlyDeleted_variant.keepsName derived (fun _ => rfl) (of_decide_eq_true rfl)
  · exact FileMoved_variant.keepsName derived (fun _ => rfl) (of_decide_eq_true rfl)
  · exact FileRestored_variant.keepsName derived (fun _ => rfl) (of_decide_eq_true rfl)
  · exact FileShared_variant.keepsName derived (fun _ => rfl) (of_decide_eq_true rfl)
  · exact ShareRevoked_variant.keepsName derived (fun _ => rfl) (of_decide_eq_true rfl)
  · exact UserRegistered_variant.keepsName derived (fun _ => rfl) (of_decide_eq_true rfl)
  · exact UserRoleChanged_variant.keepsName derived (fun _ => rfl) (of_decide_eq_true rfl)
  · exact UserDeactivated_variant.keepsName derived (fun _ => rfl) (of_decide_eq_true rfl)
  · exact SpaceCreated_variant.keepsName derived (fun _ => rfl) (of_decide_eq_true rfl)
  · exact SpaceMemberAdded_variant.keepsName derived (fun _ => rfl) (of_decide_eq_true rfl)
  · exact SpaceMemberRemoved_variant.keepsName derived (fun _ => rfl) (of_decide_eq_true rfl)
  · exact TaskStatusChanged_variant.keepsName derived (fun _ => rfl) (of_decide_eq_true rfl)

/-- The same for the kinds of tasks, of which one has no fields at all. -/
theorem models.task.TaskKind.keepNames :
    ∀ variant ∈ TaskKind.derived.variants, variant.KeepsName TaskKind.derived.tag := by
  intro variant hmem
  simp only [derived, List.mem_cons, List.not_mem_nil, or_false] at hmem
  obtain rfl | rfl | rfl | rfl | rfl := hmem
  · exact FileIndex_variant.keepsName derived (fun _ => rfl) (by decide)
  · exact ThumbnailGeneration_variant.keepsName derived (fun _ => rfl) (by decide)
  · exact VideoTranscode_variant.keepsName derived (fun _ => rfl) (by decide)
  · exact Variant.unit_keepsName derived rfl
  · exact StorageReplication_variant.keepsName derived (fun _ => rfl) (by decide)

/-- No event has the name of a kind of task. The names are compared as they are
    written, in snake case. -/
theorem event_names_notMem [uuid.Parser] : ∀ name ∈ DomainEvent.derived.variants.map Variant.name,
    name ∉ TaskKind.derived.variants.map Variant.name := by
  change ∀ name ∈ ["FileUploaded", "FileDeleted", "FilePermanentlyDeleted", "FileMoved",
    "FileRestored", "FileShared", "ShareRevoked", "UserRegistered", "UserRoleChanged",
    "UserDeactivated", "SpaceCreated", "SpaceMemberAdded", "SpaceMemberRemoved",
    "TaskStatusChanged"].map snake_case, name ∉ ["FileIndex", "ThumbnailGeneration",
      "VideoTranscode", "SearchIndexRebuild", "StorageReplication"].map snake_case
  decide

/-- Events and kinds of tasks share a tag but no name: no document is accepted
    as both, whatever other members it has. What is accepted, and sent on, goes
    out under the name that it came in under. -/
theorem kinds_apart [uuid.Parser] :
    (∀ (j : Json) (event : DomainEvent) (kind : TaskKind), deserialize j = .ok event →
      deserialize j ≠ .ok kind) ∧
    (∀ (j name : Json) (event : DomainEvent) (data : Data), deserialize j = .ok event →
      TagOf "type" j name → serialize event = .ok data → TagOf "type" data.to_json name) ∧
    ∀ (j name : Json) (kind : TaskKind) (data : Data), deserialize j = .ok kind →
      TagOf "type" j name → serialize kind = .ok data → TagOf "type" data.to_json name := by
  refine ⟨?_, ?_, ?_⟩
  · intro j event kind hevent
    exact DomainEvent.derived.apart TaskKind.derived rfl event_names_notMem hevent
  · intro j name event data hevent hname hdata
    exact DomainEvent.derived.tagOf_of_accepted DomainEvent.keepNames hevent hname hdata
  · intro j name kind data hkind hname hdata
    exact TaskKind.derived.tagOf_of_accepted TaskKind.keepNames hkind hname hdata

end jiezi_cloud_core
