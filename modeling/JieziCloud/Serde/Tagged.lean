import JieziCloud.Serde.Enum
import JieziCloud.Serde.Struct

open json result

namespace serde

/-- One variant of an internally tagged enum, with the decoder that runs on
    what is left of the input once the tag has been taken out. -/
structure Variant (E : Type) where
  identifier : String
  deserialize : Json → Except Error E

def Variant.name {E : Type} (self : Variant E) : String :=
  snake_case self.identifier

/-- A unit variant ignores whatever members remain. -/
def Variant.unit {E : Type} (identifier : String) (e : E) : Variant E where
  identifier
  deserialize
    | .obj _ => .ok e
    | .arr [] => .ok e
    | .arr items => .error (surplus_content 0 items.length)
    | _ => .error (.invalid_type "unit variant")

/-- A newtype variant decodes its content from the remaining members as if
    they were the whole input. -/
def Variant.newtype {A E : Type} [Deserialize A] (identifier : String) (make : A → E) :
    Variant E where
  identifier
  deserialize j := make <$> serde.deserialize j

/-- A variant with named fields, made from the tuple of their values. -/
structure StructVariant (E B : Type) where
  identifier : String
  fields : Fields B
  make : B → E

/-- A struct variant decodes its fields like a struct of its own, from what has
    been buffered. -/
def StructVariant.variant {E B : Type} (self : StructVariant E B) (container : String) : Variant E where
  identifier := self.identifier
  deserialize j :=
    self.make <$> self.fields.from_content ("struct variant " ++ container ++ "::" ++ self.identifier) j

/-- An enum with both traits derived under `#[serde(tag = …)]`. -/
structure Tagged (E : Type) where
  container : String
  tag : String
  variants : List (Variant E)
  distinct : (variants.map Variant.name).Nodup

def Tagged.serialize_unit {E : Type} (self : Tagged E) (identifier : String) : Except Error Data :=
  .ok (.struct [(self.tag, .str (snake_case identifier))])

def Tagged.serialize_struct {B E : Type} (self : Tagged E) (variant : StructVariant E B) (row : B) :
    Except Error Data := do
  let members ← variant.fields.serialize row
  .ok (.struct ((self.tag, .str (snake_case variant.identifier)) :: members))

/-- The serializer that puts the tag into the content of a newtype variant. It
    has a place for the tag in maps and structs only, and refuses the rest. -/
def Data.insert_tag (tag name : String) (refuse : String → Error) : Data → Except Error Data
  | .struct fields => .ok (.struct ((tag, .str name) :: fields))
  | .map entries => .ok (.map ((tag, .str name) :: entries))
  | .unit => .ok (.map [(tag, .str name)])
  | .unit_variant inner => .ok (.map [(tag, .str name), (inner, .unit)])
  | .newtype_struct value => value.insert_tag tag name refuse
  | .bool _ => .error (refuse "a boolean")
  | .int _ => .error (refuse "an integer")
  | .str _ => .error (refuse "a string")
  | .none | .some _ => .error (refuse "an optional")
  | .seq _ => .error (refuse "a sequence")

def Tagged.refuse {E : Type} (self : Tagged E) (identifier content : String) : Error :=
  .custom ("cannot serialize tagged newtype variant " ++ self.container ++ "::" ++ identifier ++
    " containing " ++ content)

def Tagged.serialize_newtype {A E : Type} [Serialize A] (self : Tagged E) (identifier : String)
    (a : A) : Except Error Data := do
  let content ← serialize a
  content.insert_tag self.tag (snake_case identifier) (self.refuse identifier)

def Tagged.variant {E : Type} (self : Tagged E) : Json → Except Error (Variant E)
  | .str name =>
    match self.variants.find? fun variant => variant.name = name with
    | some variant => .ok variant
    | none => .error (.unknown_variant name (self.variants.map Variant.name))
  | _ => .error (.invalid_type "variant identifier")

/-- One entry of the map: the tag selects the variant, and may not come twice;
    any other entry is buffered for the variant. -/
def Tagged.visit_entry {E : Type} (self : Tagged E) :
    Option (Variant E) × List (String × Json) → String × Json →
      Except Error (Option (Variant E) × List (String × Json))
  | (seen, content), entry =>
    if entry.1 = self.tag then
      match seen with
      | some _ => .error (.duplicate_field self.tag)
      | none => do
        let variant ← self.variant entry.2
        .ok (some variant, content)
    else .ok (seen, content ++ [entry])

def Tagged.dispatch {E : Type} (self : Tagged E) :
    Option (Variant E) × List (String × Json) → Except Error E
  | (some variant, content) => variant.deserialize (.obj content)
  | (none, _) => .error (.missing_field self.tag)

def Tagged.deserialize {E : Type} (self : Tagged E) : Json → Except Error E
  | .obj entries => do
    let found ← entries.foldlM self.visit_entry (none, [])
    self.dispatch found
  | .arr (tag :: items) => do
    let variant ← self.variant tag
    variant.deserialize (.arr items)
  | .arr [] => .error (.missing_field self.tag)
  | _ => .error (.invalid_type ("internally tagged enum " ++ self.container))

/-- A name finds its variant, as no other variant has the name. The variants are
    searched in their declared order. -/
theorem Tagged.find_variant {E : Type} (self : Tagged E) {variant : Variant E}
    (hmem : variant ∈ self.variants) :
    self.variant (.str variant.name) = .ok variant := by
  have hfind : self.variants.find? (fun other => other.name = variant.name) = some variant := by
    have hdistinct := self.distinct
    generalize self.variants = variants at hmem hdistinct
    induction variants with
    | nil => cases hmem
    | cons head rest ih =>
      rw [List.map_cons, List.nodup_cons] at hdistinct
      by_cases hname : head.name = variant.name
      · have hhead : variant = head := by
          rw [List.mem_cons] at hmem
          obtain rfl | hrest := hmem
          · rfl
          · exact (hdistinct.1 (hname ▸ List.mem_map_of_mem hrest)).elim
        rw [List.find?_cons_of_pos (by simpa using hname), hhead]
      · rw [List.find?_cons_of_neg (by simpa using hname)]
        rw [List.mem_cons] at hmem
        obtain rfl | hrest := hmem
        · exact (hname rfl).elim
        · exact ih hrest hdistinct.2
  rw [Tagged.variant, hfind]

/-- Members under other names than the tag are buffered in their order, before the
    tag has been seen as well as after. -/
theorem Tagged.visit_entry_of_ne {E : Type} (self : Tagged E) {entry : String × Json}
    (hne : entry.1 ≠ self.tag) (seen : Option (Variant E)) (content : List (String × Json)) :
    self.visit_entry (seen, content) entry = .ok (seen, content ++ [entry]) := by
  cases seen <;> rw [visit_entry, if_neg hne]

/-- The first member under the tag decides the variant, and is not part of the
    content. -/
theorem Tagged.visit_entry_of_tag {E : Type} (self : Tagged E) {entry : String × Json}
    (htag : entry.1 = self.tag) {variant : Variant E} (hvariant : self.variant entry.2 = .ok variant)
    (content : List (String × Json)) :
    self.visit_entry (none, content) entry = .ok (some variant, content) := by
  rw [visit_entry, if_pos htag, hvariant, ok_bind]

/-- Entries without the tag are buffered in order. -/
theorem Tagged.foldlM_visit_entry_of_absent {E : Type} (self : Tagged E) {entries : List (String × Json)}
    (h : values self.tag entries = []) (seen : Option (Variant E)) (content : List (String × Json)) :
    entries.foldlM self.visit_entry (seen, content) = .ok (seen, content ++ entries) := by
  induction entries generalizing content with
  | nil => simp [pure, Except.pure]
  | cons entry entries ih =>
    rw [values_cons] at h
    split at h
    · cases h
    · next hne =>
      rw [List.foldlM_cons, self.visit_entry_of_ne hne, ok_bind, ih h, List.append_assoc,
        List.singleton_append]

/-- The one tag of a map may stand anywhere: it selects the variant, which then
    sees the other entries in their order. -/
theorem Tagged.foldlM_visit_entry_of_tag {E : Type} (self : Tagged E) {entries : List (String × Json)}
    {name : Json} {variant : Variant E} (h : values self.tag entries = [name])
    (hvariant : self.variant name = .ok variant) (content : List (String × Json)) :
    entries.foldlM self.visit_entry (none, content) =
      .ok (some variant, content ++ entries.filter fun entry => entry.1 ≠ self.tag) := by
  induction entries generalizing content with
  | nil => cases h
  | cons entry entries ih =>
    rw [values_cons] at h
    split at h
    · next heq =>
      rw [List.cons.injEq] at h
      have hkeep : entries.filter (fun entry => entry.1 ≠ self.tag) = entries := by
        rw [List.filter_eq_self]
        intro other hother
        rw [decide_eq_true_eq]
        intro hname
        exact values_eq_nil_iff.mp h.2 (List.mem_map.mpr ⟨other, hother, hname⟩)
      rw [← h.1] at hvariant
      rw [List.foldlM_cons, self.visit_entry_of_tag heq hvariant, ok_bind,
        self.foldlM_visit_entry_of_absent h.2, List.filter_cons_of_neg (by simpa using heq), hkeep]
    · next hne =>
      rw [List.foldlM_cons, self.visit_entry_of_ne hne, ok_bind, ih h,
        List.filter_cons_of_pos (by simpa using hne), List.append_assoc, List.singleton_append]

/-- With one member under the tag, wherever it stands, its variant reads the other
    members in their order. -/
theorem Tagged.deserialize_of_tag {E : Type} (self : Tagged E) {entries : List (String × Json)}
    {variant : Variant E} (hmem : variant ∈ self.variants)
    (h : values self.tag entries = [.str variant.name]) :
    self.deserialize (.obj entries) =
      variant.deserialize (.obj (entries.filter fun entry => entry.1 ≠ self.tag)) := by
  rw [deserialize, self.foldlM_visit_entry_of_tag h (self.find_variant hmem), ok_bind, dispatch,
    List.nil_append]

end serde
