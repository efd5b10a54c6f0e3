import JieziCloud.Serde.Struct.Document

open json result

namespace serde

/-- Every value serializes, and two values have the same document exactly when
    they are related: the document discloses what the relation tells apart, and
    nothing more. -/
structure Discloses {A : Type} (serialize : A → Except Error Data) (same : A → A → Prop) : Prop where
  serializes : ∀ a, ∃ data, serialize a = .ok data
  document_eq_iff : ∀ {a b x y}, serialize a = .ok x → serialize b = .ok y →
    (x.to_json = y.to_json ↔ same a b)

/-- A type that can be read back discloses everything: values with one document
    are both what the document is read as. -/
theorem discloses_of_survives {A : Type} [Serialize A] [Deserialize A] [Survives Eq A] :
    Discloses (serialize (A := A)) Eq where
  serializes a := by
    obtain ⟨data, hdata, _⟩ := Survives.survives (R := Eq) a
    exact ⟨data, hdata⟩
  document_eq_iff {a b x y} hx hy := by
    obtain ⟨x', hx', hread⟩ := Survives.survives (R := Eq) a
    obtain ⟨y', hy', hread'⟩ := Survives.survives (R := Eq) b
    rw [hx, Except.ok.injEq] at hx'
    rw [hy, Except.ok.injEq] at hy'
    subst hx' hy'
    constructor
    · intro h
      have hsame := hread _ rfl
      rw [hread' _ h.symm, Except.ok.injEq] at hsame
      exact hsame.symm
    · rintro rfl
      rw [hx, Except.ok.injEq] at hy
      rw [hy]

/-- A list is serialized item by item, and none of the items fails. -/
theorem Discloses.mapM_serializes {A : Type} {serialize : A → Except Error Data}
    {same : A → A → Prop} (h : Discloses serialize same) (items : List A) :
    ∃ data, items.mapM serialize = .ok data := by
  induction items with
  | nil => exact ⟨[], rfl⟩
  | cons a items ih =>
    obtain ⟨head, hhead⟩ := h.serializes a
    obtain ⟨tail, htail⟩ := ih
    refine ⟨head :: tail, ?_⟩
    rw [List.mapM_cons, hhead, ok_bind, htail]
    rfl

/-- Two lists have the same documents exactly when they are as long and their
    items are related one by one. -/
theorem Discloses.mapM_eq_iff {A : Type} {serialize : A → Except Error Data} {same : A → A → Prop}
    (h : Discloses serialize same) {left right : List A} {xs ys : List Data}
    (hleft : left.mapM serialize = .ok xs) (hright : right.mapM serialize = .ok ys) :
    xs.map Data.to_json = ys.map Data.to_json ↔ List.Forall₂ same left right := by
  induction left generalizing right xs ys with
  | nil =>
    cases hleft
    cases right with
    | nil =>
      cases hright
      simp
    | cons b right =>
      rw [List.mapM_cons] at hright
      obtain ⟨y, _, hright⟩ := bind_eq_ok_iff.mp hright
      obtain ⟨rest, _, hright⟩ := bind_eq_ok_iff.mp hright
      cases hright
      simp
  | cons a left ih =>
    rw [List.mapM_cons] at hleft
    obtain ⟨x, hx, hleft⟩ := bind_eq_ok_iff.mp hleft
    obtain ⟨xs, hxs, hleft⟩ := bind_eq_ok_iff.mp hleft
    cases hleft
    cases right with
    | nil =>
      cases hright
      simp
    | cons b right =>
      rw [List.mapM_cons] at hright
      obtain ⟨y, hy, hright⟩ := bind_eq_ok_iff.mp hright
      obtain ⟨ys, hys, hright⟩ := bind_eq_ok_iff.mp hright
      cases hright
      rw [List.map_cons, List.map_cons, List.cons.injEq, List.forall₂_cons,
        h.document_eq_iff hx hy, ih hxs hys]

/-- A list discloses its length and what each of its items does. -/
theorem Discloses.list {A : Type} [Serialize A] {same : A → A → Prop}
    (h : Discloses (serialize (A := A)) same) :
    Discloses (serialize (A := List A)) (List.Forall₂ same) where
  serializes items := by
    obtain ⟨data, hdata⟩ := h.mapM_serializes items
    exact ⟨.seq data, map_eq_ok_iff.mpr ⟨data, hdata, rfl⟩⟩
  document_eq_iff hx hy := by
    obtain ⟨xs, hxs, rfl⟩ := map_eq_ok_iff.mp hx
    obtain ⟨ys, hys, rfl⟩ := map_eq_ok_iff.mp hy
    rw [Data.to_json_seq, Data.to_json_seq, Json.arr.injEq, h.mapM_eq_iff hxs hys]

/-- The relation on rows that the fields disclose: what each written field
    does, and nothing of the others. -/
inductive Fields.Disclose : {B : Type} → Fields B → (B → B → Prop) → Prop
  | nil : Fields.nil.Disclose fun _ _ => True
  | written {A B : Type} {head : Field A} {rest : Fields B} {same : A → A → Prop}
      {sameRest : B → B → Prop} : head.skip_serializing = false → Discloses head.serialize same →
      rest.Disclose sameRest →
      (Fields.cons head rest).Disclose fun s t => same s.1 t.1 ∧ sameRest s.2 t.2
  | unserialized {A B : Type} {head : Field A} {rest : Fields B} {sameRest : B → B → Prop} :
      head.skip_serializing = true → rest.Disclose sameRest →
      (Fields.cons head rest).Disclose fun s t => sameRest s.2 t.2

/-- Every row is serialized, whatever its unwritten fields hold. -/
theorem Fields.Disclose.serializes {B : Type} {self : Fields B} {same : B → B → Prop}
    (h : self.Disclose same) (row : B) : ∃ members, self.serialize row = .ok members := by
  induction h with
  | nil => exact ⟨[], rfl⟩
  | written hskip hhead _ ih =>
    obtain ⟨a, row⟩ := row
    obtain ⟨data, hdata⟩ := hhead.serializes a
    obtain ⟨members, hmembers⟩ := ih row
    rw [Fields.serialize, if_neg (by simp [hskip]), hdata, ok_bind, hmembers, ok_bind]
    exact ⟨_, rfl⟩
  | unserialized hskip _ ih =>
    obtain ⟨a, row⟩ := row
    rw [Fields.serialize, if_pos hskip]
    exact ih row

/-- The members of two rows are the same exactly when the rows are related. The
    induction is on the fields, each of which writes one member or none. -/
theorem Fields.Disclose.document_eq_iff {B : Type} {self : Fields B} {same : B → B → Prop}
    (h : self.Disclose same) {s t : B} {xs ys : List (String × Data)}
    (hs : self.serialize s = .ok xs) (ht : self.serialize t = .ok ys) :
    document xs = document ys ↔ same s t := by
  induction h generalizing xs ys with
  | nil =>
    cases hs
    cases ht
    simp
  | written hskip hhead _ ih =>
    obtain ⟨a, s⟩ := s
    obtain ⟨b, t⟩ := t
    rw [Fields.serialize, if_neg (by simp [hskip])] at hs ht
    obtain ⟨x, hx, hs⟩ := bind_eq_ok_iff.mp hs
    obtain ⟨xs, hxs, hs⟩ := bind_eq_ok_iff.mp hs
    obtain ⟨y, hy, ht⟩ := bind_eq_ok_iff.mp ht
    obtain ⟨ys, hys, ht⟩ := bind_eq_ok_iff.mp ht
    cases hs
    cases ht
    rw [document_cons, document_cons, List.cons.injEq, Prod.mk.injEq, ih hxs hys,
      hhead.document_eq_iff hx hy, and_iff_right rfl]
  | unserialized hskip _ ih =>
    rw [Fields.serialize, if_pos hskip] at hs ht
    exact ih hs ht

/-- A struct discloses what its fields disclose of its row. -/
theorem Struct.discloses {S B : Type} (self : Struct S B) {same : B → B → Prop}
    (h : self.fields.Disclose same) :
    Discloses self.serialize fun s t => same (self.row s) (self.row t) where
  serializes s := by
    obtain ⟨members, hmembers⟩ := h.serializes (self.row s)
    exact ⟨.struct members, map_eq_ok_iff.mpr ⟨members, hmembers, rfl⟩⟩
  document_eq_iff hx hy := by
    obtain ⟨xs, hxs, rfl⟩ := map_eq_ok_iff.mp hx
    obtain ⟨ys, hys, rfl⟩ := map_eq_ok_iff.mp hy
    rw [Data.to_json_struct, Data.to_json_struct, Json.obj.injEq, h.document_eq_iff hxs hys]

/-- A plain field of a type that can be read back is written in full. -/
theorem Fields.Disclose.field {A B : Type} [Serialize A] [Deserialize A] [Survives Eq A]
    {name : String} {rest : Fields B} {sameRest : B → B → Prop} (h : rest.Disclose sameRest) :
    (Fields.cons (serde.field (A := A) name) rest).Disclose fun s t => s.1 = t.1 ∧ sameRest s.2 t.2 :=
  .written rfl discloses_of_survives h

end serde
