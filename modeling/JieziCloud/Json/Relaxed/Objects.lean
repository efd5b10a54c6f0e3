import JieziCloud.Json.Relaxed
import Mathlib.Data.List.Nodup

namespace json

/-- Relaxing the values of the members changes neither the keys nor their order.
    -/
theorem RelaxedMembers.keys {members relaxed : List (String × Json)}
    (h : RelaxedMembers members relaxed) : relaxed.map Prod.fst = members.map Prod.fst := by
  induction members generalizing relaxed with
  | nil =>
    cases h
    rfl
  | cons member members ih =>
    cases h with
    | cons _ hmembers => rw [List.map_cons, List.map_cons, ih hmembers]

/-- No member is lost: its key is still there, with a relaxed value. -/
theorem RelaxedMembers.exists_of_mem {members relaxed : List (String × Json)}
    (h : RelaxedMembers members relaxed) {member : String × Json} (hmem : member ∈ members) :
    ∃ value, (member.1, value) ∈ relaxed ∧ Relaxed member.2 value := by
  induction members generalizing relaxed with
  | nil => cases hmem
  | cons head members ih =>
    cases h with
    | cons hvalue hmembers =>
      obtain rfl | hmem := List.mem_cons.mp hmem
      · exact ⟨_, List.mem_cons_self, hvalue⟩
      · obtain ⟨value, hin, hrelaxed⟩ := ih hmembers hmem
        exact ⟨value, List.mem_cons_of_mem _ hin, hrelaxed⟩

/-- An object that uses no key twice still uses none twice when it is relaxed. -/
theorem Relaxed.nodup_keys {members actual : List (String × Json)}
    (h : Relaxed (.obj members) (.obj actual)) (hnodup : (members.map Prod.fst).Nodup) :
    (actual.map Prod.fst).Nodup := by
  cases h with
  | scalar => exact hnodup
  | obj hmembers hdistinct hfresh _ hperm =>
    rw [(hperm.map Prod.fst).nodup_iff, List.map_append, hmembers.keys, List.nodup_append]
    refine ⟨hnodup, hdistinct, ?_⟩
    rintro key hkey _ hextra rfl
    obtain ⟨member, hmember, rfl⟩ := List.mem_map.mp hextra
    exact hfresh member hmember hkey

/-- Members that are found in relaxed form among others can be picked out of them,
    one for each member and in the same order. -/
theorem exists_relaxedMembers {members actual : List (String × Json)}
    (h : ∀ member ∈ members, ∃ value, (member.1, value) ∈ actual ∧ Relaxed member.2 value) :
    ∃ relaxed, RelaxedMembers members relaxed ∧ ∀ member ∈ relaxed, member ∈ actual := by
  induction members with
  | nil => exact ⟨[], .nil, by simp⟩
  | cons member members ih =>
    rw [List.forall_mem_cons] at h
    obtain ⟨⟨value, hvalue, hrelaxed⟩, hrest⟩ := h
    obtain ⟨relaxed, hmembers, hsubset⟩ := ih hrest
    refine ⟨(member.1, value) :: relaxed, .cons hrelaxed hmembers, ?_⟩
    rw [List.forall_mem_cons]
    exact ⟨hvalue, hsubset⟩

/-- Between objects that use no key twice it is enough to look at the members:
    those of the first are there in relaxed form, and the others are scalars. -/
theorem Relaxed.of_mem {members actual : List (String × Json)} (hmembers : (members.map Prod.fst).Nodup)
    (hactual : (actual.map Prod.fst).Nodup)
    (hkept : ∀ member ∈ members, ∃ value, (member.1, value) ∈ actual ∧ Relaxed member.2 value)
    (hadded : ∀ member ∈ actual, member.1 ∉ members.map Prod.fst → member.2.IsScalar) :
    Relaxed (.obj members) (.obj actual) := by
  obtain ⟨relaxed, hrelaxed, hsubset⟩ := exists_relaxedMembers hkept
  let extra := actual.filter fun member => member.1 ∉ members.map Prod.fst
  have hextra : ∀ member ∈ extra, member ∈ actual ∧ member.1 ∉ members.map Prod.fst := by
    intro member hmember
    simpa [extra] using hmember
  have hdistinct : (extra.map Prod.fst).Nodup := hactual.sublist (List.filter_sublist.map Prod.fst)
  have hnodup : ((relaxed ++ extra).map Prod.fst).Nodup := by
    rw [List.map_append, hrelaxed.keys, List.nodup_append]
    refine ⟨hmembers, hdistinct, ?_⟩
    rintro key hkey _ hmem rfl
    obtain ⟨member, hmember, rfl⟩ := List.mem_map.mp hmem
    exact (hextra member hmember).2 hkey
  have hperm : actual.Perm (relaxed ++ extra) := by
    rw [List.perm_ext_iff_of_nodup hactual.of_map hnodup.of_map]
    intro found
    rw [List.mem_append]
    constructor
    · intro hfound
      by_cases hkey : found.1 ∈ members.map Prod.fst
      · obtain ⟨member, hmember, heq⟩ := List.mem_map.mp hkey
        obtain ⟨value, hvalue, _⟩ := hrelaxed.exists_of_mem hmember
        have hsame := List.inj_on_of_nodup_map hactual hfound (hsubset _ hvalue) heq.symm
        exact .inl (hsame ▸ hvalue)
      · exact .inr (by simpa [extra, hfound] using hkey)
    · rintro (hfound | hfound)
      · exact hsubset found hfound
      · exact (hextra found hfound).1
  exact .obj hrelaxed hdistinct (fun member hmember => (hextra member hmember).2)
    (fun member hmember => hadded member (hextra member hmember).1 (hextra member hmember).2) hperm

/-- Scalars do not nest, so adding them to an object leaves its depth alone. -/
theorem Json.depth_of_isScalar {j : Json} (h : j.IsScalar) : j.depth = 0 := by
  cases j using Json.casesOn with
  | arr => exact h.elim
  | obj => exact h.elim
  | _ => simp [Json.depth]

/-- An array nests no deeper when none of its items does. The hypothesis on the
    items is the induction hypothesis of the document. -/
theorem RelaxedItems.depth_le {items relaxed : List Json} (h : RelaxedItems items relaxed)
    (hdepth : ∀ item ∈ items, ∀ k, Relaxed item k → k.depth ≤ item.depth) :
    Json.depthItems relaxed ≤ Json.depthItems items := by
  induction items generalizing relaxed with
  | nil =>
    cases h
    exact Nat.le_refl _
  | cons item items ih =>
    cases h with
    | cons hitem hitems =>
      rw [List.forall_mem_cons] at hdepth
      rw [Json.depthItems_cons, Json.depthItems_cons]
      have hhead := hdepth.1 _ hitem
      have htail := ih hitems hdepth.2
      omega

theorem RelaxedMembers.depth_le {members relaxed : List (String × Json)}
    (h : RelaxedMembers members relaxed)
    (hdepth : ∀ member ∈ members, ∀ k, Relaxed member.2 k → k.depth ≤ member.2.depth) :
    Json.depthMembers relaxed ≤ Json.depthMembers members := by
  induction members generalizing relaxed with
  | nil =>
    cases h
    exact Nat.le_refl _
  | cons member members ih =>
    cases h with
    | cons hvalue hmembers =>
      rw [List.forall_mem_cons] at hdepth
      rw [Json.depthMembers_cons, Json.depthMembers_cons]
      have hhead := hdepth.1 _ hvalue
      have htail := ih hmembers hdepth.2
      dsimp only at hhead ⊢
      omega

/-- What is added to a document are scalars, which nest nothing. The induction is
    on the document, whose members keep their values in relaxed form. -/
theorem Relaxed.depth_le {j k : Json} (h : Relaxed j k) : k.depth ≤ j.depth := by
  induction j generalizing k with
  | arr items ih =>
    cases h with
    | scalar => exact Nat.le_refl _
    | arr hitems =>
      rw [Json.depth_arr, Json.depth_arr, Nat.add_le_add_iff_right]
      exact hitems.depth_le ih
  | obj members ih =>
    cases h with
    | scalar => exact Nat.le_refl _
    | obj hmembers _ _ hscalar hperm =>
      have hkept := Json.depthMembers_le_iff.mp (hmembers.depth_le ih)
      rw [Json.depth_obj, Json.depth_obj, Nat.add_le_add_iff_right, Json.depthMembers_le_iff]
      intro member hmember
      rw [hperm.mem_iff, List.mem_append] at hmember
      obtain hmember | hmember := hmember
      · exact hkept member hmember
      · rw [Json.depth_of_isScalar (hscalar member hmember)]
        exact Nat.zero_le _
  | _ => exact Nat.le_of_eq (congrArg Json.depth (h.eq_of_isScalar trivial))

/-- An array nests no less deeply when none of its items does, as each of them is
    still there in its place. -/
theorem RelaxedItems.le_depth {items relaxed : List Json} (h : RelaxedItems items relaxed)
    (hdepth : ∀ item ∈ items, ∀ k, Relaxed item k → item.depth ≤ k.depth) :
    Json.depthItems items ≤ Json.depthItems relaxed := by
  induction items generalizing relaxed with
  | nil => exact Nat.zero_le _
  | cons item items ih =>
    cases h with
    | cons hitem hitems =>
      rw [List.forall_mem_cons] at hdepth
      rw [Json.depthItems_cons, Json.depthItems_cons]
      have hhead := hdepth.1 _ hitem
      have htail := ih hitems hdepth.2
      omega

/-- Nor is anything taken out of a document: every member is still there, with
    a value that nests as deeply. -/
theorem Relaxed.le_depth {j k : Json} (h : Relaxed j k) : j.depth ≤ k.depth := by
  induction j generalizing k with
  | arr items ih =>
    cases h with
    | scalar => exact Nat.le_refl _
    | arr hitems =>
      rw [Json.depth_arr, Json.depth_arr, Nat.add_le_add_iff_right]
      exact hitems.le_depth ih
  | obj members ih =>
    cases h with
    | scalar => exact Nat.le_refl _
    | @obj _ relaxed extra actual hmembers _ _ _ hperm =>
      rw [Json.depth_obj, Json.depth_obj, Nat.add_le_add_iff_right, Json.depthMembers_le_iff]
      intro member hmember
      obtain ⟨value, hin, hrelaxed⟩ := hmembers.exists_of_mem hmember
      have hactual : (member.1, value) ∈ actual := by
        rw [hperm.mem_iff]
        exact List.mem_append_left _ hin
      have hkept := Json.depthMembers_le_iff.mp (Nat.le_refl (Json.depthMembers actual)) _ hactual
      exact Nat.le_trans (ih member hmember hrelaxed) hkept
  | _ => exact Nat.le_of_eq (congrArg Json.depth (h.eq_of_isScalar trivial)).symm

/-- Relaxing a document keeps its depth: whether a reader refuses it for its
    nesting does not depend on what a channel has done to it. -/
theorem Relaxed.depth_eq {j k : Json} (h : Relaxed j k) : k.depth = j.depth :=
  Nat.le_antisymm h.depth_le h.le_depth

end json
