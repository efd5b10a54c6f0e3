import JieziCloud.Serde.Nesting
import Mathlib.Order.Fin.Basic

open serde

namespace chrono

/-- A point in time of a time line. The order of the instants is the order of
    the time line. -/
def DateTime (Utc : Type) : Type := Utc

instance {Utc : Type} [LinearOrder Utc] : LinearOrder (DateTime Utc) :=
  inferInstanceAs (LinearOrder Utc)

/-- The text form of the instants, of which the code relies on one fact: the
    printed form of an instant parses to the instant, to the last digit. -/
class TimeLine (Utc : Type) extends LinearOrder Utc where
  to_rfc3339 : DateTime Utc → String
  parse_from_rfc3339 : String → Option (DateTime Utc)
  parse_to_rfc3339 : ∀ self, parse_from_rfc3339 (to_rfc3339 self) = some self

variable {Utc : Type} [TimeLine Utc]

instance : Serialize (DateTime Utc) := ⟨fun self => .ok (.str (TimeLine.to_rfc3339 self))⟩

instance : Deserialize (DateTime Utc) where
  deserialize
    | .str text =>
      match TimeLine.parse_from_rfc3339 text with
      | some self => .ok self
      | none => .error (.custom "input contains invalid characters")
    | _ => .error (.invalid_type "an RFC 3339 formatted date and time string")

instance {R : json.Json → json.Json → Prop} [Disturbance R] : Survives R (DateTime Utc) :=
  survives_of_scalar (fun _ => rfl) (fun _ => trivial) (fun self => by
    simp only [Data.to_json, deserialize, TimeLine.parse_to_rfc3339])

instance : NeverNull (DateTime Utc) where
  ne_null h := by
    cases h
    simp [Data.to_json]

instance : Flat (DateTime Utc) := flat_of_scalar (fun _ => rfl) (fun _ => trivial)

/-- The whole seconds of the first minute of 1970, as a time line. -/
abbrev FirstMinute : Type := Fin 60

def FirstMinute.to_rfc3339 (second : FirstMinute) : String :=
  String.ofList
    (['1', '9', '7', '0', '-', '0', '1', '-', '0', '1', 'T', '0', '0', ':', '0', '0', ':'] ++
      [(second.val / 10).digitChar, (second.val % 10).digitChar, 'Z'])

/-- The instant so many seconds into the minute. -/
def FirstMinute.second (seconds : Nat) : DateTime FirstMinute := Fin.ofNat 60 seconds

def FirstMinute.from_timestamp (seconds : Nat) : Option FirstMinute :=
  if h : seconds < 60 then some ⟨seconds, h⟩ else none

theorem FirstMinute.from_timestamp_val (second : FirstMinute) :
    from_timestamp second.val = some second := by
  rw [from_timestamp, dif_pos second.isLt]

/-- The two digits are read as a number, which must then print as the text. -/
def FirstMinute.parse_from_rfc3339 (text : String) : Option FirstMinute :=
  match text.toList.drop 17 with
  | [tens, ones, 'Z'] =>
    (from_timestamp ((tens.toNat - 48) * 10 + (ones.toNat - 48))).filter
      fun second => second.to_rfc3339 = text
  | _ => none

/-- The two digits printed for a second are read as the second again, each
    character taken back to its value and weighted by its place. -/
theorem FirstMinute.digits (second : FirstMinute) :
    ((second.val / 10).digitChar.toNat - 48) * 10 + ((second.val % 10).digitChar.toNat - 48) =
      second.val := by
  revert second
  decide

/-- The sample time line meets its one law: what it prints for an instant is
    parsed as the instant. -/
theorem FirstMinute.parse_to_rfc3339 (second : FirstMinute) :
    parse_from_rfc3339 second.to_rfc3339 = some second := by
  have htail : second.to_rfc3339.toList.drop 17 =
      [(second.val / 10).digitChar, (second.val % 10).digitChar, 'Z'] := by
    rw [to_rfc3339, String.toList_ofList]
    rfl
  rw [parse_from_rfc3339, htail]
  change (from_timestamp _).filter _ = _
  rw [second.digits, second.from_timestamp_val, Option.filter_some, if_pos (decide_eq_true rfl)]

instance : TimeLine FirstMinute where
  to_rfc3339 := FirstMinute.to_rfc3339
  parse_from_rfc3339 := FirstMinute.parse_from_rfc3339
  parse_to_rfc3339 := FirstMinute.parse_to_rfc3339

end chrono
