import JieziCloud.Serde.Primitives

open json result

namespace serde

def snake_case_tail : List Char → List Char
  | [] => []
  | c :: cs => (if c.isUpper then ['_', c.toLower] else [c]) ++ snake_case_tail cs

/-- `rename_all = "snake_case"` on the identifier of a variant. -/
def snake_case (identifier : String) : String :=
  match identifier.toList with
  | [] => ""
  | c :: cs => String.ofList (c.toLower :: snake_case_tail cs)

/-- An enum of unit variants with both traits derived and its variants renamed
    to snake case. Every variant is the first one of its name. -/
structure UnitEnum (E : Type) where
  identifier : E → String
  variants : List E
  find_self : ∀ e, variants.find? (fun other => snake_case (identifier other) = snake_case (identifier e)) =
    some e

def UnitEnum.name {E : Type} (self : UnitEnum E) (e : E) : String :=
  snake_case (self.identifier e)

def UnitEnum.serialize {E : Type} (self : UnitEnum E) (e : E) : Except Error Data :=
  .ok (.unit_variant (self.name e))

def UnitEnum.variant {E : Type} (self : UnitEnum E) (name : String) : Except Error E :=
  match self.variants.find? fun e => snake_case (self.identifier e) = name with
  | some e => .ok e
  | none => .error (.unknown_variant name (self.variants.map self.name))

/-- The variant's name, or a map from the name to `null` and nothing else. -/
def UnitEnum.deserialize {E : Type} (self : UnitEnum E) : Json → Except Error E
  | .str name => self.variant name
  | .obj [(name, .null)] => self.variant name
  | .obj ((name, .null) :: _) => do
    let _ ← self.variant name
    .error (.unreadable .malformed)
  | .obj ((name, _) :: _) => do
    let _ ← self.variant name
    .error (.invalid_type "unit")
  | _ => .error (.unreadable .malformed)

/-- The same for content that has been buffered before it is decoded, as an
    internally tagged enum does. An empty map counts as a unit there, too. -/
def UnitEnum.from_content {E : Type} (self : UnitEnum E) : Json → Except Error E
  | .str name => self.variant name
  | .obj [(name, .null)] | .obj [(name, .obj [])] => self.variant name
  | .obj [(name, _)] => do
    let _ ← self.variant name
    .error (.invalid_type "unit")
  | .obj _ => .error (.invalid_value "map with a single key")
  | _ => .error (.invalid_type "string or map")

/-- Both readers take a name for the variant that has it. -/
theorem UnitEnum.deserialize_of_str {E : Type} (self : UnitEnum E) (e : E) :
    self.deserialize (.str (self.name e)) = .ok e ∧ self.from_content (.str (self.name e)) = .ok e := by
  have hvariant : self.variant (self.name e) = .ok e := by
    rw [variant, name, self.find_self]
  exact ⟨hvariant, hvariant⟩

/-- A unit variant is written as its name, which no disturbance touches, and
    which decodes to it. -/
theorem UnitEnum.survives {E : Type} {R : Json → Json → Prop} [Disturbance R] (self : UnitEnum E)
    (e : E) : ∃ data, self.serialize e = .ok data ∧
      ∀ j, R data.to_json j → self.deserialize j = .ok e := by
  refine ⟨.unit_variant (self.name e), rfl, ?_⟩
  intro j hj
  rw [Data.to_json] at hj
  rw [Disturbance.eq_str hj, (self.deserialize_of_str e).1]

/-- The same when the name has been buffered on the way. -/
theorem UnitEnum.survives_content {E : Type} {R : Json → Json → Prop} [Disturbance R]
    (self : UnitEnum E) (e : E) : ∃ data, self.serialize e = .ok data ∧
      ∀ j, R data.to_json j → self.from_content j = .ok e := by
  refine ⟨.unit_variant (self.name e), rfl, ?_⟩
  intro j hj
  rw [Data.to_json] at hj
  rw [Disturbance.eq_str hj, (self.deserialize_of_str e).2]

end serde
