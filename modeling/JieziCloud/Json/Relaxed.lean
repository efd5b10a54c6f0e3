import JieziCloud.Json.Basic

namespace json

def Json.IsScalar : Json → Prop
  | .arr _ | .obj _ => False
  | _ => True

mutual

/-- `Relaxed j k` when `k` is `j` with the members of every object permuted and
    with further members added to every object: scalars, of pairwise distinct
    keys that the object does not use. -/
inductive Relaxed : Json → Json → Prop where
  | scalar {j : Json} (hscalar : j.IsScalar) : Relaxed j j
  | arr {items relaxed : List Json} (hitems : RelaxedItems items relaxed) :
      Relaxed (.arr items) (.arr relaxed)
  | obj {members relaxed extra actual : List (String × Json)}
      (hmembers : RelaxedMembers members relaxed)
      (hdistinct : (extra.map Prod.fst).Nodup)
      (hfresh : ∀ member ∈ extra, member.1 ∉ members.map Prod.fst)
      (hscalar : ∀ member ∈ extra, member.2.IsScalar)
      (hperm : actual.Perm (relaxed ++ extra)) :
      Relaxed (.obj members) (.obj actual)

inductive RelaxedItems : List Json → List Json → Prop where
  | nil : RelaxedItems [] []
  | cons {item relaxed : Json} {items rest : List Json} (hitem : Relaxed item relaxed)
      (hitems : RelaxedItems items rest) : RelaxedItems (item :: items) (relaxed :: rest)

inductive RelaxedMembers : List (String × Json) → List (String × Json) → Prop where
  | nil : RelaxedMembers [] []
  | cons {key : String} {value relaxed : Json} {members rest : List (String × Json)}
      (hvalue : Relaxed value relaxed) (hmembers : RelaxedMembers members rest) :
      RelaxedMembers ((key, value) :: members) ((key, relaxed) :: rest)

end

/-- An array may stay as it is when each of its items may. -/
theorem RelaxedItems.refl {items : List Json} (h : ∀ item ∈ items, Relaxed item item) :
    RelaxedItems items items := by
  induction items with
  | nil => exact .nil
  | cons item items ih =>
    rw [List.forall_mem_cons] at h
    exact .cons h.1 (ih h.2)

theorem RelaxedMembers.refl {members : List (String × Json)}
    (h : ∀ member ∈ members, Relaxed member.2 member.2) : RelaxedMembers members members := by
  induction members with
  | nil => exact .nil
  | cons member members ih =>
    rw [List.forall_mem_cons] at h
    exact .cons h.1 (ih h.2)

/-- Leaving a document as it is relaxes it: no member is moved or added. -/
theorem Relaxed.refl (j : Json) : Relaxed j j := by
  induction j with
  | null => exact .scalar trivial
  | bool value => exact .scalar trivial
  | num value => exact .scalar trivial
  | str value => exact .scalar trivial
  | arr items ih => exact .arr (.refl ih)
  | obj members ih =>
    have hkept : members.Perm (members ++ []) := by rw [List.append_nil]
    exact .obj (.refl ih) (by simp) (by simp) (by simp) hkept

/-- There is nothing in a scalar that could be moved or added to: a scalar is
    relaxed to itself only. -/
theorem Relaxed.eq_of_isScalar {j k : Json} (h : Relaxed j k) (hscalar : j.IsScalar) : k = j := by
  cases h with
  | scalar => rfl
  | arr => exact hscalar.elim
  | obj => exact hscalar.elim

/-- Relaxing the members leaves the values under each key in their places and
    relaxes every one of them. -/
theorem RelaxedMembers.values {members relaxed : List (String × Json)}
    (h : RelaxedMembers members relaxed) (key : String) :
    RelaxedItems (values key members) (json.values key relaxed) := by
  induction members generalizing relaxed with
  | nil =>
    cases h
    exact .nil
  | cons member members ih =>
    cases h with
    | cons hvalue hmembers =>
      rw [values_cons, values_cons]
      split
      · exact .cons hvalue (ih hmembers)
      · exact ih hmembers

/-- A member that occurs once still occurs once in a relaxed object, whatever
    its new place and neighbours, and its value is relaxed in turn. -/
theorem Relaxed.values_singleton {members : List (String × Json)} {j : Json}
    (h : Relaxed (.obj members) j) :
    ∃ actual, j = .obj actual ∧ ∀ key value, values key members = [value] →
      ∃ relaxed, json.values key actual = [relaxed] ∧ Relaxed value relaxed := by
  cases h with
  | scalar hscalar => exact hscalar.elim
  | @obj _ kept extra actual hmembers _ hfresh _ hperm =>
    refine ⟨actual, rfl, ?_⟩
    intro key value hvalue
    have hextra : json.values key extra = [] := by
      rw [values_eq_nil_iff]
      intro hmem
      obtain ⟨member, hmember, rfl⟩ := List.mem_map.mp hmem
      have hpresent : member.1 ∈ members.map Prod.fst := by
        by_contra habsent
        rw [values_eq_nil_iff.mpr habsent] at hvalue
        cases hvalue
      exact hfresh member hmember hpresent
    have hkept := hmembers.values key
    rw [hvalue] at hkept
    have hactual : (json.values key actual).Perm (json.values key (kept ++ extra)) :=
      values_perm hperm
    rw [values_append, hextra, List.append_nil] at hactual
    generalize json.values key kept = found at hkept hactual
    cases hkept with
    | cons hrelaxed hrest =>
      cases hrest
      exact ⟨_, List.perm_singleton.mp hactual, hrelaxed⟩

end json
