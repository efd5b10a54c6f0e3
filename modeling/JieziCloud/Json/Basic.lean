import Mathlib.Algebra.Group.Int.Defs
import Mathlib.Algebra.Group.Nat.Defs
import Mathlib.Data.List.Basic

namespace json

/-- An integer that fits `i64` or `u64`: the numbers a document holds exactly. -/
structure Integer where
  val : Int
  lower : -2 ^ 63 ≤ val
  upper : val < 2 ^ 64
  deriving DecidableEq

/-- A JSON document as it is read or written: the members of an object keep
    their order, and nothing forbids two of them from having the same key. -/
inductive Json where
  | null
  | bool (value : Bool)
  | num (value : Integer)
  | str (value : String)
  | arr (items : List Json)
  | obj (members : List (String × Json))

mutual

/-- How many arrays and objects are nested at the deepest place. -/
def Json.depth : Json → Nat
  | .null | .bool _ | .num _ | .str _ => 0
  | .arr items => Json.depthItems items + 1
  | .obj members => Json.depthMembers members + 1

def Json.depthItems : List Json → Nat
  | [] => 0
  | item :: items => max item.depth (Json.depthItems items)

def Json.depthMembers : List (String × Json) → Nat
  | [] => 0
  | (_, value) :: members => max value.depth (Json.depthMembers members)

end

/-- Induction over a document, one case for each constructor, with the
    hypothesis for every item of an array and every member of an object. -/
@[induction_eliminator]
theorem Json.induction {motive : Json → Prop} (null : motive .null)
    (bool : ∀ value, motive (.bool value)) (num : ∀ value, motive (.num value))
    (str : ∀ value, motive (.str value))
    (arr : ∀ items, (∀ item ∈ items, motive item) → motive (.arr items))
    (obj : ∀ members, (∀ member ∈ members, motive member.2) → motive (.obj members))
    (j : Json) : motive j := by
  refine Json.rec (motive_1 := motive) (motive_2 := fun items => ∀ item ∈ items, motive item)
    (motive_3 := fun members => ∀ member ∈ members, motive member.2)
    (motive_4 := fun member => motive member.2) null bool num str arr obj ?_ ?_ ?_ ?_ ?_ j
  · simp
  · intro item items hitem hitems
    simpa using ⟨hitem, hitems⟩
  · simp
  · intro member members hmember hmembers
    rw [List.forall_mem_cons]
    exact ⟨hmember, hmembers⟩
  · intro key value hvalue
    exact hvalue

@[simp] theorem Json.depth_arr (items : List Json) :
    (Json.arr items).depth = Json.depthItems items + 1 := by simp [Json.depth]

@[simp] theorem Json.depth_obj (members : List (String × Json)) :
    (Json.obj members).depth = Json.depthMembers members + 1 := by simp [Json.depth]

@[simp] theorem Json.depthItems_cons (item : Json) (items : List Json) :
    Json.depthItems (item :: items) = max item.depth (Json.depthItems items) := by
  simp [Json.depthItems]

@[simp] theorem Json.depthMembers_cons (member : String × Json) (members : List (String × Json)) :
    Json.depthMembers (member :: members) = max member.2.depth (Json.depthMembers members) := by
  simp [Json.depthMembers]

/-- The depth of a list of items is the least bound for all of them, so that
    bounding it is bounding each item. -/
theorem Json.depthItems_le_iff {items : List Json} {bound : Nat} :
    Json.depthItems items ≤ bound ↔ ∀ item ∈ items, item.depth ≤ bound := by
  induction items with
  | nil => simp [Json.depthItems]
  | cons item items ih => rw [depthItems_cons, Nat.max_le, ih, List.forall_mem_cons]

theorem Json.depthMembers_le_iff {members : List (String × Json)} {bound : Nat} :
    Json.depthMembers members ≤ bound ↔ ∀ member ∈ members, member.2.depth ≤ bound := by
  induction members with
  | nil => simp [Json.depthMembers]
  | cons member members ih => rw [depthMembers_cons, Nat.max_le, ih, List.forall_mem_cons]

/-- The values of the members named `key`, in the order of the document. -/
def values (key : String) (members : List (String × Json)) : List Json :=
  members.filterMap fun member => if member.1 = key then some member.2 else none

@[simp] theorem values_nil (key : String) : values key [] = [] := rfl

/-- The first member is looked at first, and the values of the others follow in
    their order. -/
theorem values_cons (key : String) (member : String × Json) (members : List (String × Json)) :
    values key (member :: members) =
      if member.1 = key then member.2 :: values key members else values key members := by
  unfold values
  rw [List.filterMap_cons]
  split <;> simp_all

@[simp] theorem values_append (key : String) (left right : List (String × Json)) :
    values key (left ++ right) = values key left ++ values key right := by
  simp [values]

/-- The values under a key are the values of the members that have it, however
    often it occurs. -/
theorem mem_values_iff {key : String} {members : List (String × Json)} {value : Json} :
    value ∈ values key members ↔ (key, value) ∈ members := by
  simp only [values, List.mem_filterMap, Option.ite_none_right_eq_some, Option.some.injEq]
  constructor
  · rintro ⟨⟨name, found⟩, hmem, rfl, rfl⟩
    exact hmem
  · intro hmem
    exact ⟨(key, value), hmem, rfl, rfl⟩

theorem values_eq_nil_iff {key : String} {members : List (String × Json)} :
    values key members = [] ↔ key ∉ members.map Prod.fst := by
  simp only [List.eq_nil_iff_forall_not_mem, mem_values_iff, List.mem_map, Prod.exists,
    exists_and_right, exists_eq_right, not_exists]

/-- Dropping the members of another name leaves the members of this one. -/
theorem values_filter_ne {key tag : String} (hne : key ≠ tag) (members : List (String × Json)) :
    values key (members.filter fun member => member.1 ≠ tag) = values key members := by
  induction members with
  | nil => rfl
  | cons member members ih =>
    by_cases htag : member.1 = tag
    · have hkey : member.1 ≠ key := fun h => hne (h.symm.trans htag)
      rw [List.filter_cons_of_neg (by simpa using htag), values_cons, if_neg hkey, ih]
    · rw [List.filter_cons_of_pos (by simpa using htag), values_cons, values_cons, ih]

/-- The order of the members has no bearing on which values stand under a key,
    only on the order of these values. -/
theorem values_perm {key : String} {left right : List (String × Json)} (h : left.Perm right) :
    (values key left).Perm (values key right) :=
  h.filterMap _

end json
