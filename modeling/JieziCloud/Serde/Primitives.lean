import JieziCloud.Serde.DataModel
import JieziCloud.Json.Relaxed
import Mathlib.Data.List.Forall2

open json result

namespace serde

def integer_of_nat (n : Nat) (h : n < 2 ^ 64) : Integer :=
  ⟨n, by omega, by omega⟩

/-- The unsigned integers of one width: any number of the document that fits. -/
def deserialize_unsigned {A : Type} (expected : String) (width : Nat) (make : Nat → A) :
    Json → Except Error A
  | .num n =>
    if 0 ≤ n.val ∧ n.val < 2 ^ width then .ok (make n.val.toNat)
    else .error (.invalid_value expected)
  | _ => .error (.invalid_type expected)

instance : Serialize Bool := ⟨fun value => .ok (.bool value)⟩

instance : Deserialize Bool where
  deserialize
    | .bool value => .ok value
    | _ => .error (.invalid_type "a boolean")

instance : Serialize String := ⟨fun value => .ok (.str value)⟩

instance : Deserialize String where
  deserialize
    | .str value => .ok value
    | _ => .error (.invalid_type "a string")

instance : Serialize UInt8 :=
  ⟨fun n => .ok (.int (integer_of_nat n.toNat (by have := n.toNat_lt; omega)))⟩

instance : Deserialize UInt8 where
  deserialize := deserialize_unsigned "u8" 8 UInt8.ofNat

instance : Serialize UInt32 :=
  ⟨fun n => .ok (.int (integer_of_nat n.toNat (by have := n.toNat_lt; omega)))⟩

instance : Deserialize UInt32 where
  deserialize := deserialize_unsigned "u32" 32 UInt32.ofNat

instance : Serialize UInt64 :=
  ⟨fun n => .ok (.int (integer_of_nat n.toNat (by have := n.toNat_lt; omega)))⟩

instance : Deserialize UInt64 where
  deserialize := deserialize_unsigned "u64" 64 UInt64.ofNat

instance {A : Type} [Serialize A] : Serialize (Option A) where
  serialize
    | none => .ok .none
    | some a => .some <$> serialize a

/-- An optional value: `null` or a missing member is `none`. -/
instance {A : Type} [Deserialize A] : Deserialize (Option A) where
  deserialize
    | .null => .ok none
    | j => some <$> deserialize j
  missing_field _ := .ok none

instance {A : Type} [Serialize A] : Serialize (List A) where
  serialize items := .seq <$> items.mapM serialize

instance {A : Type} [Deserialize A] : Deserialize (List A) where
  deserialize
    | .arr items => items.mapM deserialize
    | _ => .error (.invalid_type "a sequence")

/-- A relation between the document that was written and the one that is read:
    it may disturb how objects are laid out, but neither scalars nor the place
    of anything in an array, and no member that occurs once is lost. -/
class Disturbance (R : Json → Json → Prop) : Prop where
  refl : ∀ j, R j j
  scalar : ∀ {j k}, j.IsScalar → R j k → k = j
  arr : ∀ {items k}, R (.arr items) k → ∃ actual, k = .arr actual ∧ List.Forall₂ R items actual
  obj : ∀ {members k}, R (.obj members) k → ∃ actual, k = .obj actual ∧
    ∀ key value, values key members = [value] →
      ∃ found, values key actual = [found] ∧ R value found

instance : Disturbance (Eq : Json → Json → Prop) where
  refl _ := rfl
  scalar _ h := h.symm
  arr h := ⟨_, h.symm, List.forall₂_same.mpr fun _ _ => rfl⟩
  obj h := ⟨_, h.symm, fun _ value hvalue => ⟨value, hvalue, rfl⟩⟩

/-- The items of a relaxed array are the items themselves in relaxed form, one by
    one. -/
theorem forall₂_of_relaxedItems {items relaxed : List Json} (h : RelaxedItems items relaxed) :
    List.Forall₂ Relaxed items relaxed := by
  induction items generalizing relaxed with
  | nil =>
    cases h
    exact .nil
  | cons item items ih =>
    cases h with
    | cons hitem hitems => exact .cons hitem (ih hitems)

instance : Disturbance Relaxed where
  refl := Relaxed.refl
  scalar hscalar h := h.eq_of_isScalar hscalar
  arr h := by
    cases h with
    | scalar hscalar => exact hscalar.elim
    | arr hitems => exact ⟨_, rfl, forall₂_of_relaxedItems hitems⟩
  obj h := h.values_singleton

/-- Every value serializes, and whatever the relation turns its document into
    decodes to the value itself. -/
class Survives (R : Json → Json → Prop) (A : Type) [Serialize A] [Deserialize A] : Prop where
  survives : ∀ a : A, ∃ data, serialize a = .ok data ∧
    ∀ j, R data.to_json j → deserialize j = .ok a

/-- The documents of a type are never `null`, so that an option around it can
    tell a value from its absence. -/
class NeverNull (A : Type) [Serialize A] : Prop where
  ne_null : ∀ {a : A} {data : Data}, serialize a = .ok data → data.to_json ≠ .null

/-- Nothing is turned into null but null itself, so that no option is lost on the
    way. -/
theorem Disturbance.ne_null {R : Json → Json → Prop} [Disturbance R] {j k : Json} (h : R j k)
    (hne : j ≠ .null) : k ≠ .null := by
  rintro rfl
  cases j using Json.casesOn with
  | null => exact hne rfl
  | bool value => cases scalar (R := R) (j := .bool value) trivial h
  | num value => cases scalar (R := R) (j := .num value) trivial h
  | str value => cases scalar (R := R) (j := .str value) trivial h
  | arr items =>
    obtain ⟨_, heq, _⟩ := arr h
    cases heq
  | obj members =>
    obtain ⟨_, heq, _⟩ := obj h
    cases heq

/-- A list survives when its items do: each is read from whatever has become of
    its own document. -/
theorem mapM_survives {R : Json → Json → Prop} {A : Type} [Serialize A] [Deserialize A]
    [Survives R A] (items : List A) :
    ∃ data, items.mapM serialize = .ok data ∧
      ∀ actual, List.Forall₂ R (data.map Data.to_json) actual →
        actual.mapM deserialize = .ok items := by
  induction items with
  | nil =>
    refine ⟨[], rfl, ?_⟩
    intro actual h
    cases h
    rfl
  | cons a items ih =>
    obtain ⟨head, hhead, hdecode⟩ := Survives.survives (R := R) a
    obtain ⟨tail, htail, hrest⟩ := ih
    refine ⟨head :: tail, ?_, ?_⟩
    · rw [List.mapM_cons, hhead, htail]
      rfl
    · intro actual h
      cases h with
      | cons hj hactual =>
        rw [List.mapM_cons, hdecode _ hj, hrest _ hactual]
        rfl

/-- A string stays as it is under every disturbance. -/
theorem Disturbance.eq_str {R : Json → Json → Prop} [Disturbance R] {text : String} {j : Json}
    (h : R (.str text) j) : j = .str text :=
  scalar (j := .str text) trivial h

theorem Disturbance.eq_null {R : Json → Json → Prop} [Disturbance R] {j : Json} (h : R .null j) :
    j = .null :=
  scalar (j := .null) trivial h

section instances

variable {R : Json → Json → Prop} [Disturbance R]

/-- A type whose values are written as scalars survives as soon as decoding
    undoes the encoding. -/
theorem survives_of_scalar {A : Type} [Serialize A] [Deserialize A] {encode : A → Data}
    (hserialize : ∀ a, serialize a = .ok (encode a)) (hscalar : ∀ a, (encode a).to_json.IsScalar)
    (hdeserialize : ∀ a, deserialize (encode a).to_json = .ok a) : Survives R A where
  survives a := by
    refine ⟨encode a, hserialize a, ?_⟩
    intro j hj
    rw [Disturbance.scalar (hscalar a) hj, hdeserialize]

/-- A number that fits the width is read back as it was written. Every width of
    the code is within the integers of the documents. -/
theorem deserialize_unsigned_of_nat {A : Type} (expected : String) {width : Nat} {make : Nat → A}
    {n : Nat} (hwidth : n < 2 ^ width) (h : n < 2 ^ 64) :
    deserialize_unsigned expected width make (.num (integer_of_nat n h)) = .ok (make n) := by
  have hfits : 0 ≤ (n : Int) ∧ (n : Int) < 2 ^ width := by
    refine ⟨by omega, ?_⟩
    exact_mod_cast hwidth
  simp [deserialize_unsigned, integer_of_nat, hfits.2]

instance : Survives R Bool :=
  survives_of_scalar (fun _ => rfl) (fun _ => trivial) (fun _ => rfl)

instance : Survives R String :=
  survives_of_scalar (fun _ => rfl) (fun _ => trivial) (fun _ => rfl)

instance : Survives R UInt8 :=
  survives_of_scalar (fun _ => rfl) (fun _ => trivial)
    (fun n => (deserialize_unsigned_of_nat _ n.toNat_lt _).trans (by simp))

instance : Survives R UInt32 :=
  survives_of_scalar (fun _ => rfl) (fun _ => trivial)
    (fun n => (deserialize_unsigned_of_nat _ n.toNat_lt _).trans (by simp))

instance : Survives R UInt64 :=
  survives_of_scalar (fun _ => rfl) (fun _ => trivial)
    (fun n => (deserialize_unsigned_of_nat _ n.toNat_lt _).trans (by simp))

instance : NeverNull String where
  ne_null h := by
    cases h
    simp [Data.to_json]

instance : NeverNull UInt32 where
  ne_null h := by
    cases h
    simp [Data.to_json]

instance : NeverNull UInt64 where
  ne_null h := by
    cases h
    simp [Data.to_json]

instance {A : Type} [Serialize A] [Deserialize A] [Survives R A] [NeverNull A] :
    Survives R (Option A) where
  survives a := by
    cases a with
    | none =>
      refine ⟨.none, rfl, ?_⟩
      intro j hj
      rw [Data.to_json] at hj
      rw [Disturbance.eq_null hj]
      rfl
    | some a =>
      obtain ⟨data, hserialize, hdecode⟩ := Survives.survives (R := R) a
      have hsome : serialize (some a) = .ok (.some data) := by simp [serialize, hserialize]
      refine ⟨.some data, hsome, ?_⟩
      intro j hj
      rw [Data.to_json] at hj
      have hne := Disturbance.ne_null hj (NeverNull.ne_null hserialize)
      have hread : deserialize (A := Option A) j = some <$> deserialize j := by
        cases j using Json.casesOn <;> first | rfl | exact (hne rfl).elim
      rw [hread, hdecode j hj, map_ok]

instance {A : Type} [Serialize A] [Deserialize A] [Survives R A] : Survives R (List A) where
  survives items := by
    obtain ⟨data, hserialize, hdecode⟩ := mapM_survives (R := R) items
    have hseq : serialize items = .ok (.seq data) := by simp [serialize, hserialize]
    refine ⟨.seq data, hseq, ?_⟩
    intro j hj
    rw [Data.to_json_seq] at hj
    obtain ⟨actual, rfl, hactual⟩ := Disturbance.arr hj
    exact hdecode actual hactual

end instances

end serde
