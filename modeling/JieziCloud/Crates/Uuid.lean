import JieziCloud.Hex
import JieziCloud.Serde.Primitives

open serde

namespace uuid

/-- A UUID is its sixteen bytes, the most significant one first. -/
structure Uuid where
  bytes : List UInt8
  length_bytes : bytes.length = 16
  deriving DecidableEq

/-- The lower-case hyphenated form, in groups of 8, 4, 4, 4 and 12 digits. -/
def Uuid.hyphenated (self : Uuid) : List Char :=
  (self.bytes.take 4).flatMap hex.byte_chars ++ '-' ::
    (((self.bytes.drop 4).take 2).flatMap hex.byte_chars ++ '-' ::
      (((self.bytes.drop 6).take 2).flatMap hex.byte_chars ++ '-' ::
        (((self.bytes.drop 8).take 2).flatMap hex.byte_chars ++ '-' ::
          (self.bytes.drop 10).flatMap hex.byte_chars)))

/-- `Display` -/
def Uuid.to_string (self : Uuid) : String :=
  String.ofList self.hyphenated

/-- The parser of the crate, of which the code relies on one fact: it accepts
    what `Display` prints, as the UUID that was printed. -/
class Parser where
  parse_str : String → Option Uuid
  parse_str_to_string : ∀ self : Uuid, parse_str self.to_string = some self

export Parser (parse_str)

instance : Serialize Uuid := ⟨fun self => .ok (.str self.to_string)⟩

instance [Parser] : Deserialize Uuid where
  deserialize
    | .str text =>
      match parse_str text with
      | some self => .ok self
      | none => .error (.custom "UUID parsing failed")
    | _ => .error (.invalid_type "a formatted UUID string")

instance {R : json.Json → json.Json → Prop} [Disturbance R] [Parser] : Survives R Uuid :=
  survives_of_scalar (fun _ => rfl) (fun _ => trivial) (fun self => by
    simp only [Data.to_json, deserialize, Parser.parse_str_to_string])

instance : NeverNull Uuid where
  ne_null h := by
    cases h
    simp [Data.to_json]

/-- Taking the hyphens out of the printed form leaves the digits of the bytes in
    order, since no digit is a hyphen and the groups together hold every byte
    once. -/
theorem Uuid.filter_hyphenated (self : Uuid) :
    self.hyphenated.filter (fun c => c ≠ '-') = self.bytes.flatMap hex.byte_chars := by
  have hkeep : ∀ bytes : List UInt8,
      (bytes.flatMap hex.byte_chars).filter (fun c => c ≠ '-') = bytes.flatMap hex.byte_chars := by
    intro bytes
    rw [List.filter_eq_self]
    intro c hc
    rw [decide_eq_true_eq]
    rintro rfl
    exact hex.hyphen_notMem_byte_chars bytes hc
  have hskip : ∀ cs : List Char,
      ('-' :: cs).filter (fun c => c ≠ '-') = cs.filter (fun c => c ≠ '-') := by
    intro cs
    rw [List.filter_cons_of_neg (by simp)]
  have hgroups : self.bytes = self.bytes.take 4 ++ ((self.bytes.drop 4).take 2 ++
      ((self.bytes.drop 6).take 2 ++ ((self.bytes.drop 8).take 2 ++ self.bytes.drop 10))) := by
    rw [← List.drop_drop (i := 2) (j := 8), List.take_append_drop,
      ← List.drop_drop (i := 2) (j := 6), List.take_append_drop,
      ← List.drop_drop (i := 2) (j := 4), List.take_append_drop, List.take_append_drop]
  conv_rhs => rw [hgroups]
  simp only [hyphenated, List.filter_append, hskip, hkeep, List.flatMap_append]

/-- The UUID that repeats one byte. -/
def Uuid.repeated (byte : UInt8) : Uuid where
  bytes := List.replicate 16 byte
  length_bytes := List.length_replicate

/-- A parser for the hyphenated form alone: the digits are decoded wherever the
    hyphens stand, and the text is then compared with what they print as. -/
@[reducible] def hyphenatedParser : Parser where
  parse_str text := do
    let bytes ← hex.decode (text.toList.filter fun c => c ≠ '-')
    if h : bytes.length = 16 then
      if (Uuid.mk bytes h).to_string = text then some ⟨bytes, h⟩ else none
    else none
  parse_str_to_string self := by
    have hdecode : hex.decode (self.to_string.toList.filter fun c => c ≠ '-') = some self.bytes := by
      rw [Uuid.to_string, String.toList_ofList, self.filter_hyphenated, hex.decode_flatMap_byte_chars]
    simp only [hdecode, Option.bind_eq_bind, Option.bind_some, dif_pos self.length_bytes, if_pos]

end uuid
