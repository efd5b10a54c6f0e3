import JieziCloud.Serde.Struct

open json result

namespace serde

/-- A document gives a field the value `a`: by one member that decodes to it. -/
def Field.Given {A : Type} (self : Field A) (entries : List (String × Json)) (a : A) : Prop :=
  ∃ j, values self.name entries = [j] ∧ self.deserialize j = .ok a

/-- What a trip through a document leaves of one field. -/
def Field.retained {A : Type} (self : Field A) (a : A) : Except Error A :=
  if self.skip_serializing then self.absent else .ok a

/-- What a trip through a document leaves of a row: the fields that are
    written come back, the others come back as their absence. -/
def Fields.retained {B : Type} : Fields B → B → Except Error B
  | .nil, _ => .ok ()
  | .cons head rest, (a, row) => do
    let a ← head.retained a
    let row ← rest.retained row
    .ok (a, row)

/-- A document carries the written fields of a row, and no member named like
    one of the others. -/
def Fields.Carried {B : Type} : Fields B → List (String × Json) → B → Prop
  | .nil, _, _ => True
  | .cons head rest, entries, (a, row) =>
    (if head.skip_serializing then values head.name entries = [] else head.Given entries a) ∧
      rest.Carried entries row

/-- The outcome of visiting all the entries, field by field. -/
def Fields.Visited {B : Type} : (self : Fields B) → self.Slots → List (String × Json) →
    self.Slots → Prop
  | .nil => fun _ _ _ => True
  | @Fields.cons A _ head rest =>
    fun ((slot, slots) : Option A × rest.Slots) entries ((slot', slots') : Option A × rest.Slots) =>
    ((values head.name entries = [] ∧ slot' = slot) ∨
      (slot = none ∧ ∃ a, head.Given entries a ∧ slot' = some a)) ∧
      rest.Visited slots entries slots'

/-- Visiting no entries fills no slots. -/
theorem Fields.visited_nil_iff {B : Type} (self : Fields B) (slots slots' : self.Slots) :
    self.Visited slots [] slots' ↔ slots' = slots := by
  induction self with
  | nil => exact ⟨fun _ => rfl, fun _ => trivial⟩
  | cons head rest ih =>
    obtain ⟨slot, slots⟩ := slots
    obtain ⟨slot', slots'⟩ := slots'
    simp only [Fields.Visited, Field.Given, values_nil, true_and, ih, reduceCtorEq, false_and,
      exists_false, and_false, or_false]
    exact Iff.of_eq (Prod.mk.injEq ..).symm

/-- An entry that names none of the fields changes nothing for them. -/
theorem Fields.visited_cons_of_notMem {B : Type} (self : Fields B) {entry : String × Json}
    (h : entry.1 ∉ self.names) (slots slots' : self.Slots) (entries : List (String × Json)) :
    self.Visited slots (entry :: entries) slots' ↔ self.Visited slots entries slots' := by
  induction self with
  | nil => exact Iff.rfl
  | cons head rest ih =>
    obtain ⟨slot, slots⟩ := slots
    obtain ⟨slot', slots'⟩ := slots'
    simp only [Fields.names, List.mem_cons, not_or] at h
    simp only [Fields.Visited, Field.Given, values_cons, if_neg h.1, ih h.2]

/-- One step of the visit: the entry is taken by the one field it names, which
    must still be vacant, and the remaining entries are visited from there. -/
theorem Fields.visit_entry_step {B : Type} (self : Fields B) (hnames : self.names.Nodup)
    (slots slots' : self.Slots) (entry : String × Json) (entries : List (String × Json)) :
    (∃ mid, self.visit_entry slots entry = .ok mid ∧ self.Visited mid entries slots') ↔
      self.Visited slots (entry :: entries) slots' := by
  induction self with
  | nil => exact ⟨fun _ => trivial, fun _ => ⟨slots, rfl, trivial⟩⟩
  | cons head rest ih =>
    obtain ⟨slot, slots⟩ := slots
    obtain ⟨slot', slots'⟩ := slots'
    simp only [Fields.names, List.nodup_cons] at hnames
    by_cases hname : entry.1 = head.name
    · have hrest : entry.1 ∉ rest.names := hname ▸ hnames.1
      cases slot with
      | some seen =>
        simp only [Fields.visit_entry, if_pos hname, Fields.Visited, Field.Given, values_cons]
        simp
      | none =>
        simp only [Fields.visit_entry, if_pos hname, Fields.Visited, Field.Given, values_cons,
          rest.visited_cons_of_notMem hrest, bind_eq_ok_iff]
        constructor
        · rintro ⟨mid, ⟨a, ha, hmid⟩, hmids⟩
          cases hmid
          obtain ⟨hslot, hslots⟩ := hmids
          refine ⟨.inr ⟨trivial, a, ⟨entry.2, ?_, ha⟩, ?_⟩, hslots⟩
          · obtain ⟨hnil, _⟩ | ⟨hsome, _⟩ := hslot
            · rw [hnil]
            · cases hsome
          · obtain ⟨_, rfl⟩ | ⟨hsome, _⟩ := hslot
            · rfl
            · cases hsome
        · rintro ⟨⟨hcons, _⟩ | ⟨_, a, ⟨j, hvalues, ha⟩, rfl⟩, hslots⟩
          · cases hcons
          · rw [List.cons.injEq] at hvalues
            obtain ⟨rfl, hnil⟩ := hvalues
            exact ⟨(some a, slots), ⟨a, ha, rfl⟩, .inl ⟨hnil, rfl⟩, hslots⟩
    · simp only [Fields.visit_entry, if_neg hname, Fields.Visited, Field.Given, values_cons,
        bind_eq_ok_iff, ← ih hnames.2]
      constructor
      · rintro ⟨_, ⟨mid, hmid, heq⟩, hmids⟩
        cases heq
        obtain ⟨hslot, hslots⟩ := hmids
        exact ⟨hslot, mid, hmid, hslots⟩
      · rintro ⟨hslot, mid, hmid, hslots⟩
        exact ⟨(slot, mid), ⟨mid, hmid, rfl⟩, hslot, hslots⟩

/-- The whole visit of a map, from any slots: it succeeds exactly when every
    field is named at most once while vacant, and fills it accordingly. -/
theorem Fields.foldlM_visit_entry_iff {B : Type} (self : Fields B) (hnames : self.names.Nodup)
    (entries : List (String × Json)) (slots slots' : self.Slots) :
    entries.foldlM self.visit_entry slots = .ok slots' ↔ self.Visited slots entries slots' := by
  induction entries generalizing slots with
  | nil =>
    rw [self.visited_nil_iff, List.foldlM_nil]
    exact ⟨fun h => (Except.ok.inj h).symm, fun h => congrArg Except.ok h.symm⟩
  | cons entry entries ih =>
    rw [List.foldlM_cons, bind_eq_ok_iff, ← self.visit_entry_step hnames]
    simp only [ih]

/-- The slots that a document carrying a row leaves behind. -/
def Fields.filled {B : Type} : (self : Fields B) → B → self.Slots
  | .nil, _ => ()
  | .cons head rest, (a, row) =>
    (if head.skip_serializing then none else some a, rest.filled row)

/-- A document that carries a row fills the slots of its written fields with their
    values, and leaves the others vacant. -/
theorem Fields.Carried.visited {B : Type} {self : Fields B} {entries : List (String × Json)}
    {row : B} (h : self.Carried entries row) :
    self.Visited self.vacant entries (self.filled row) := by
  induction self with
  | nil => trivial
  | cons head rest ih =>
    obtain ⟨a, row⟩ := row
    obtain ⟨hhead, hrest⟩ := h
    refine ⟨?_, ih hrest⟩
    cases hskip : head.skip_serializing with
    | true => exact .inl ⟨by simpa [hskip] using hhead, by simp⟩
    | false => exact .inr ⟨rfl, a, by simpa [hskip] using hhead, by simp⟩

/-- What the decoder makes of these slots in the end is what the trip leaves of
    the row. -/
theorem Fields.finish_filled {B : Type} (self : Fields B) (row : B) :
    self.finish (self.filled row) = self.retained row := by
  induction self with
  | nil => rfl
  | cons head rest ih =>
    obtain ⟨a, row⟩ := row
    have hhead : head.filled_or_absent (if head.skip_serializing then none else some a) =
        head.retained a := by
      unfold Field.retained
      cases head.skip_serializing <;> rfl
    simp only [Fields.finish, Fields.filled, Fields.retained, hhead, ih]

/-- Decoding a document that carries a row returns what the row retains,
    wherever its members stand and whatever other members surround them. -/
theorem Fields.visit_map_of_carried {B : Type} {self : Fields B} (hnames : self.names.Nodup)
    {entries : List (String × Json)} {row : B} (h : self.Carried entries row) :
    self.visit_map entries = self.retained row := by
  rw [visit_map, (self.foldlM_visit_entry_iff hnames entries _ _).mpr h.visited, ok_bind,
    finish_filled]

/-- An entry list is what a row was read from: each field has its one member,
    or has none and takes the value of its absence. -/
def Fields.ReadFrom {B : Type} : Fields B → List (String × Json) → B → Prop
  | .nil, _, _ => True
  | .cons head rest, entries, (a, row) =>
    ((values head.name entries = [] ∧ head.absent = .ok a) ∨ head.Given entries a) ∧
      rest.ReadFrom entries row

/-- Visiting all the entries and finishing comes to reading each field by itself,
    as its own member or as the value of its absence. -/
theorem Fields.finish_visited_iff {B : Type} (self : Fields B) (entries : List (String × Json))
    (row : B) :
    (∃ slots, self.Visited self.vacant entries slots ∧ self.finish slots = .ok row) ↔
      self.ReadFrom entries row := by
  induction self with
  | nil => exact ⟨fun _ => trivial, fun _ => ⟨(), trivial, rfl⟩⟩
  | cons head rest ih =>
    obtain ⟨a, row⟩ := row
    simp only [Fields.ReadFrom, ← ih]
    constructor
    · rintro ⟨⟨slot, slots⟩, ⟨hslot, hslots⟩, hfinish⟩
      simp only [Fields.finish, bind_eq_ok_iff, Except.ok.injEq, Prod.mk.injEq] at hfinish
      obtain ⟨b, hb, row', hrow, rfl, rfl⟩ := hfinish
      refine ⟨?_, slots, hslots, hrow⟩
      obtain ⟨hnil, rfl⟩ | ⟨_, c, hgiven, rfl⟩ := hslot
      · exact .inl ⟨hnil, hb⟩
      · cases hb
        exact .inr hgiven
    · rintro ⟨hhead, slots, hslots, hrow⟩
      obtain ⟨hnil, habsent⟩ | hgiven := hhead
      · exact ⟨(none, slots), ⟨.inl ⟨hnil, rfl⟩, hslots⟩,
          by simp [Fields.finish, Field.filled_or_absent, habsent, hrow]⟩
      · exact ⟨(some a, slots), ⟨.inr ⟨rfl, a, hgiven, rfl⟩, hslots⟩,
          by simp [Fields.finish, Field.filled_or_absent, hrow]⟩

/-- Everything a struct decoder accepts from a map, and nothing else. -/
theorem Fields.visit_map_eq_ok_iff {B : Type} {self : Fields B} (hnames : self.names.Nodup)
    {entries : List (String × Json)} {row : B} :
    self.visit_map entries = .ok row ↔ self.ReadFrom entries row := by
  rw [visit_map, bind_eq_ok_iff, ← finish_visited_iff]
  simp only [self.foldlM_visit_entry_iff hnames]

/-- An array gives the first field its first item, or nothing at all, in which
    case the field needs a default and the array is over. -/
theorem Fields.visit_seq_cons_eq_ok {A B : Type} {head : Field A} {rest : Fields B}
    {expected : String} {surplus : Nat → Nat → Error} {index : Nat} {items : List Json} {a : A}
    {row : B} (h : (Fields.cons head rest).visit_seq expected surplus index items = .ok (a, row)) :
    (items = [] ∧ head.default = some a ∧
      rest.visit_seq expected surplus (index + 1) [] = .ok row) ∨
      ∃ item tail, items = item :: tail ∧ head.deserialize item = .ok a ∧
        rest.visit_seq expected surplus (index + 1) tail = .ok row := by
  cases items with
  | nil =>
    rw [Fields.visit_seq] at h
    split at h
    · next value hdefault =>
      obtain ⟨row', hrow, heq⟩ := bind_eq_ok_iff.mp h
      cases heq
      exact .inl ⟨rfl, hdefault, hrow⟩
    · cases h
  | cons item tail =>
    rw [Fields.visit_seq] at h
    obtain ⟨a', ha, h⟩ := bind_eq_ok_iff.mp h
    obtain ⟨row', hrow, heq⟩ := bind_eq_ok_iff.mp h
    cases heq
    exact .inr ⟨item, tail, rfl, ha, hrow⟩

end serde
