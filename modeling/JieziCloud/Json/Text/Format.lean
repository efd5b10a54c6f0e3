import JieziCloud.Json.Text.Budget

namespace json

/-- The text is one of the document: it is read as the document by a reader
    that may nest far enough. -/
def spells (text : String) (document : Json) : Prop :=
  ∃ budget, parse_document budget text.toList = .ok document

/-- A text format for documents that refuses to nest past a limit. A document
    has further texts beside the one that is written, and each of them reads
    back as the document, unless the nesting itself is refused. -/
class TextFormat (limit : Nat) where
  write : Json → String
  parse : String → Except ParseError Json
  Spells : String → Json → Prop
  spells_write : ∀ j, Spells (write j) j
  spells_of_parse : ∀ {s j}, parse s = .ok j → Spells s j
  parse_of_spells : ∀ {s j}, Spells s j →
    parse s = if j.depth ≤ limit then .ok j else .error .recursion_limit_exceeded

/-- The compact writer and the reader above, as a text format. -/
@[reducible] def compact (limit : Nat) : TextFormat limit where
  write j := String.ofList (write_document j)
  parse s := parse_document limit s.toList
  Spells := spells
  spells_write j := ⟨j.depth, by
    rw [String.toList_ofList, parse_document_write_document, if_pos (Nat.le_refl _)]⟩
  spells_of_parse h := ⟨limit, h⟩
  parse_of_spells h := by
    obtain ⟨budget, hparse⟩ := h
    exact parse_document_rebudgeted hparse

namespace TextFormat

variable {limit : Nat} [TextFormat limit]

/-- The written text is one of the document, and read like all of them. -/
theorem parse_write (j : Json) : parse limit (write limit j) =
    if j.depth ≤ limit then .ok j else .error .recursion_limit_exceeded :=
  parse_of_spells (spells_write j)

/-- Within the limit a text spells one document only. -/
theorem eq_of_spells {s : String} {j k : Json} (hj : Spells limit s j) (hk : Spells limit s k)
    (hdepth : j.depth ≤ limit) : k = j := by
  have hparse := parse_of_spells hk
  rw [parse_of_spells hj, if_pos hdepth] at hparse
  split at hparse
  · cases hparse
    rfl
  · cases hparse

/-- Within the limit the written text is read back as the document. -/
theorem parse_write_of_le {j : Json} (h : j.depth ≤ limit) :
    parse limit (write limit j) = .ok j := by
  rw [parse_write, if_pos h]

/-- Nothing that nests more deeply than the limit is ever read. -/
theorem depth_le_of_parse {s : String} {j : Json} (h : parse limit s = .ok j) : j.depth ≤ limit := by
  by_contra hdeep
  rw [parse_of_spells (spells_of_parse h), if_neg hdeep] at h
  cases h

/-- Documents within the limit are written differently when they differ. -/
theorem write_injective {left right : Json} (hleft : left.depth ≤ limit) (hright : right.depth ≤ limit)
    (h : write limit left = write limit right) : left = right := by
  have hparse : parse limit (write limit left) = .ok left := parse_write_of_le hleft
  rw [h, parse_write_of_le hright, Except.ok.injEq] at hparse
  exact hparse.symm

end TextFormat

end json
