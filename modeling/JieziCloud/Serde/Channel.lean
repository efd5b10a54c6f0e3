import JieziCloud.Json.Relaxed.Objects
import JieziCloud.Serde.Nesting
import JieziCloud.Serde.Recovers

open json result

namespace serde

variable [TextFormat recursion_limit]

/-- A channel for texts that keeps what their objects hold: it may write the
    members in another order, add members of its own, and choose another text
    for the document. How deeply the document nests is no matter to it. -/
def Conveys (sent received : String) : Prop :=
  ∃ document relaxed, TextFormat.Spells recursion_limit sent document ∧
    Relaxed document relaxed ∧ TextFormat.Spells recursion_limit received relaxed

/-- The text of the first value can arrive as one of the second. -/
def Arrives {A : Type} [Serialize A] [Deserialize A] (a b : A) : Prop :=
  ∃ sent received, to_string a = .ok sent ∧ Conveys sent received ∧ from_str received = .ok b

/-- A text that is decoded at all nests within the limit of the reader. -/
theorem from_str_eq_ok_of_spells {A : Type} [Deserialize A] {text : String} {document : Json}
    (hspells : TextFormat.Spells recursion_limit text document) {a : A}
    (h : from_str text = .ok a) : document.depth ≤ recursion_limit ∧ deserialize document = .ok a := by
  by_cases hdepth : document.depth ≤ recursion_limit
  · rw [from_str_of_spells hspells hdepth] at h
    exact ⟨hdepth, h⟩
  · rw [from_str_of_spells_of_lt hspells (Nat.lt_of_not_le hdepth)] at h
    cases h

/-- A written text spells no document within the limit but the one that was
    written. -/
theorem eq_of_spells_write {document other : Json}
    (h : TextFormat.Spells recursion_limit (TextFormat.write recursion_limit document) other)
    (hdepth : other.depth ≤ recursion_limit) :
    other = document ∧ document.depth ≤ recursion_limit := by
  have heq : document = other := TextFormat.eq_of_spells h (TextFormat.spells_write _) hdepth
  subst heq
  exact ⟨rfl, hdepth⟩

/-- Values arrive as what they can be recovered as, if they nest within the
    limit of the receiver, and otherwise not at all: the channel passes them on,
    as deeply nested as before, and the receiver refuses them. -/
theorem arrives_iff {A : Type} [Serialize A] [Deserialize A] {same : A → A → Prop}
    (h : Recovers (serialize (A := A)) deserialize same) (a b : A) :
    Arrives a b ↔ NestsAtMost serialize recursion_limit a ∧ same a b := by
  obtain ⟨data, hdata⟩ := h.serializes a
  rw [nestsAtMost_iff_of_ok hdata, ← h.read_iff hdata]
  constructor
  · rintro ⟨sent, received, hsent, ⟨document, relaxed, hspells, hrelaxed, hreceived⟩, hread⟩
    rw [to_string_eq_ok hdata, Except.ok.injEq] at hsent
    subst hsent
    obtain ⟨hdepth, hdecode⟩ := from_str_eq_ok_of_spells hreceived hread
    rw [hrelaxed.depth_eq] at hdepth
    obtain ⟨rfl, hle⟩ := eq_of_spells_write hspells hdepth
    exact ⟨hle, relaxed, hrelaxed, hdecode⟩
  · rintro ⟨hle, relaxed, hrelaxed, hread⟩
    rw [← hrelaxed.depth_eq] at hle
    refine ⟨_, TextFormat.write recursion_limit relaxed, to_string_eq_ok hdata, ?_, ?_⟩
    · exact ⟨_, relaxed, TextFormat.spells_write _, hrelaxed, TextFormat.spells_write relaxed⟩
    · rw [from_str_write hle, hread]

/-- For a value that is not too deep, what it can be recovered as is what it
    arrives as. -/
theorem arrives_iff_of_nestsAtMost {A : Type} [Serialize A] [Deserialize A] {same : A → A → Prop}
    (h : Recovers (serialize (A := A)) deserialize same) {a : A}
    (hdepth : NestsAtMost serialize recursion_limit a) (b : A) : Arrives a b ↔ same a b := by
  rw [arrives_iff h, and_iff_right hdepth]

end serde
