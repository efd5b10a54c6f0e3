import JieziCloud.Models.File

open chrono jiezi_cloud_core.types json result serde

namespace jiezi_cloud_core.models.file

/-- Decoding the extra values makes none of them deeper than they were in the
    document, around which the map is one level. -/
theorem extra_depth_le {j : Json} {extra : HashMap Value} (h : deserialize j = .ok extra)
    {bound : Nat} (hdepth : j.depth ≤ bound + 1) {entry : String × Value}
    (hmem : entry ∈ extra.entries) : entry.2.document.depth ≤ bound := by
  obtain ⟨members, value, rfl, hvalue, hread⟩ := HashMap.mem_of_deserialize h hmem
  rw [Json.depth_obj, Nat.add_le_add_iff_right, Json.depthMembers_le_iff] at hdepth
  rw [← Except.ok.inj hread]
  exact Nat.le_trans (depth_canonicalize_le value) (hdepth _ hvalue)

namespace FileMetadata

/-- What the decoder finds in `extra` was in the document, two levels down, so
    that the limit on the text leaves the values two levels less. -/
theorem extraNestsAtMost_of_deserialize {j : Json} {self : FileMetadata}
    (h : deserialize j = .ok self) {bound : Nat} (hdepth : j.depth ≤ bound + 2) :
    self.ExtraNestsAtMost bound := by
  obtain ⟨⟨tags, extra, is_indexed, has_thumbnail, ⟨⟩⟩, hrow, rfl⟩ := map_eq_ok_iff.mp h
  intro key value hget
  replace hget : (key, value) ∈ extra.entries := HashMap.get_eq_some_iff.mp hget
  cases j using Json.casesOn with
  | obj members =>
    rw [Json.depth_obj, Nat.add_le_add_iff_right, Json.depthMembers_le_iff] at hdepth
    obtain ⟨_, hextra, _⟩ := (Fields.visit_map_eq_ok_iff names).mp hrow
    obtain ⟨_, habsent⟩ | ⟨document, hdocument, hread⟩ := hextra
    · cases habsent
      cases hget
    · have hmem : ("extra", document) ∈ members :=
        mem_values_iff.mp (hdocument ▸ List.mem_singleton.mpr rfl)
      exact extra_depth_le hread (hdepth _ hmem) hget
  | arr items =>
    rw [Json.depth_arr, Nat.add_le_add_iff_right, Json.depthItems_le_iff] at hdepth
    obtain ⟨_, _, hrest⟩ | ⟨item, tail, rfl, _, hrest⟩ := Fields.visit_seq_cons_eq_ok hrow
    · obtain ⟨_, hdefault, _⟩ | ⟨_, _, hnil, _⟩ := Fields.visit_seq_cons_eq_ok hrest
      · cases hdefault
        cases hget
      · cases hnil
    · obtain ⟨_, hdefault, _⟩ | ⟨document, rest, rfl, hread, _⟩ := Fields.visit_seq_cons_eq_ok hrest
      · cases hdefault
        cases hget
      · exact extra_depth_le hread (hdepth document (by simp)) hget
  | _ => cases hrow

variable [TextFormat recursion_limit]

/-- The decoder accepts the metadata, from some text. -/
def Accepted (self : FileMetadata) : Prop :=
  ∃ (text : String) (other : FileMetadata), from_str text = .ok other ∧ other.Same self

/-- Exactly the metadata whose extra values nest at most 125 deep is accepted. -/
theorem accepted_iff (self : FileMetadata) : self.Accepted ↔ self.ExtraNestsAtMost 125 := by
  constructor
  · rintro ⟨text, other, hread, hsame⟩ key value hget
    have hextra : other.extra.get key = some value := (hsame.2.1 key).trans hget
    unfold from_str at hread
    split at hread
    · next document hparse =>
      exact extraNestsAtMost_of_deserialize hread (TextFormat.depth_le_of_parse hparse) key value hextra
    · cases hread
  · intro hextra
    have hdepth := (self.nestsAtMost_iff 125).mpr hextra
    obtain ⟨text, _, hread⟩ := rereads_self hdepth
    exact ⟨text, self, hread, rfl, HashMap.Same.refl _, rfl, rfl⟩

end FileMetadata

namespace FileNode

variable {Utc : Type} [TimeLine Utc] [uuid.Parser] [TextFormat recursion_limit]

/-- The node has a text, and the text is read back as the node. -/
def RoundTrips (self : FileNode Utc) : Prop :=
  ∃ other : FileNode Utc, Rereads self (.ok other) ∧ other.Same self

/-- A node that nests too deeply has a text like any other, which its own decoder
    refuses. -/
theorem rereads_of_deep {self : FileNode Utc} (h : ¬self.metadata.ExtraNestsAtMost 124) :
    Rereads self (.error (.unreadable .recursion_limit_exceeded)) := by
  obtain ⟨data, hdata, _⟩ := Survives.survives (R := Eq) self
  rw [← self.nestsAtMost_iff_extra] at h
  exact rereads_of_not_nestsAtMost hdata h

/-- Around its extra values a node has one level more than the metadata that
    was accepted: it is read back exactly when they nest at most 124 deep. -/
theorem roundTrips_iff_extraNestsAtMost (self : FileNode Utc) :
    self.RoundTrips ↔ self.metadata.ExtraNestsAtMost 124 := by
  constructor
  · rintro ⟨other, hreads, _⟩
    by_contra hdeep
    cases hreads.unique (rereads_of_deep hdeep)
  · intro hextra
    have hreads := rereads_self (self.nestsAtMost_iff_extra.mpr hextra)
    exact ⟨self, hreads, rfl, rfl, HashMap.Same.refl _, rfl, rfl⟩

end FileNode

def nested_arrays : Nat → Json
  | 0 => .null
  | depth + 1 => .arr [nested_arrays depth]

theorem depth_nested_arrays (depth : Nat) : (nested_arrays depth).depth = depth := by
  induction depth with
  | zero => rfl
  | succ depth ih => simp [nested_arrays, Json.depthItems, ih]

theorem canonical_nested_arrays (depth : Nat) : Canonical (nested_arrays depth) := by
  induction depth with
  | zero => exact .scalar trivial
  | succ depth ih => exact .arr (List.forall_mem_singleton.mpr ih)

/-- Metadata whose one extra value nests as many arrays as are accepted. -/
def deep_metadata : FileMetadata where
  tags := []
  extra := ⟨[("exif", ⟨nested_arrays 125, canonical_nested_arrays 125⟩)], List.nodup_singleton _⟩
  is_indexed := false
  has_thumbnail := false

def deep_node : FileNode FirstMinute where
  id := ⟨.repeated 1⟩
  parent_id := none
  space_id := ⟨.repeated 2⟩
  owner_id := ⟨.repeated 3⟩
  name := "report.pdf"
  node_type := .File
  size := 1024
  mime_type := some "application/pdf"
  content_hash := none
  created_at := FirstMinute.second 0
  updated_at := FirstMinute.second 0
  deleted_at := none
  metadata := deep_metadata

/-- The sample metadata nests as deeply as accepted metadata can. -/
theorem deep_metadata_extraNestsAtMost_iff (bound : Nat) :
    deep_metadata.ExtraNestsAtMost bound ↔ 125 ≤ bound := by
  have hget : ∀ key value, deep_metadata.extra.get key = some value ↔
      (key, value) = ("exif", ⟨nested_arrays 125, canonical_nested_arrays 125⟩) := by
    intro key value
    rw [HashMap.get_eq_some_iff]
    exact List.mem_singleton
  constructor
  · intro h
    have hdepth := h "exif" _ ((hget _ _).mpr rfl)
    rwa [depth_nested_arrays] at hdepth
  · intro hle key value h
    cases (hget key value).mp h
    rwa [depth_nested_arrays]

/-- A node with metadata that was accepted on its own is not read back with it:
    inside the node there is one level more. -/
theorem deep_node_not_roundTrips :
    @FileMetadata.Accepted (compact recursion_limit) deep_node.metadata ∧
      ¬@FileNode.RoundTrips FirstMinute _ uuid.hyphenatedParser (compact recursion_limit) deep_node := by
  let _ := uuid.hyphenatedParser
  let _ := compact recursion_limit
  constructor
  · apply deep_metadata.accepted_iff.mpr
    exact (deep_metadata_extraNestsAtMost_iff 125).mpr le_rfl
  · rintro ⟨other, hreads, _⟩
    have hdeep : ¬deep_metadata.ExtraNestsAtMost 124 := by
      rw [deep_metadata_extraNestsAtMost_iff]
      omega
    have hrefused : Rereads deep_node (.error (.unreadable .recursion_limit_exceeded)) :=
      FileNode.rereads_of_deep hdeep
    cases hreads.unique hrefused

end jiezi_cloud_core.models.file
