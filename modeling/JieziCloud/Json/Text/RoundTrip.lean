import JieziCloud.Json.Text.Document

namespace json

/-- The reader of the values nested one level below a budget, if any is left. -/
def nestedReader : Nat → Option (Reader Json)
  | 0 => none
  | budget + 1 => some (read_document budget)

/-- A document is read by the reader of values, which is handed the reader for one
    level less, if there is one. -/
theorem read_document_eq (budget : Nat) :
    read_document budget = read_value (nestedReader budget) := by
  cases budget <;> rfl

/-- The outcome of reading a written value under a nesting budget: the value
    and all the text behind it, or a refusal when it nests too deeply. -/
def readOutcome {A : Type} (fits : Prop) [Decidable fits] (a : A) (rest : List Char) :
    Except ParseError (A × List Char) :=
  if fits then .ok (a, rest) else .error .recursion_limit_exceeded

/-- What a written value starts with. Reading never mistakes it for a blank or
    for the end of an array. -/
theorem write_document_head (j : Json) :
    ∃ c cs, write_document j = c :: cs ∧ c ≠ ']' ∧
      ∀ rest, skip_whitespace (c :: cs ++ rest) = c :: cs ++ rest := by
  cases j using Json.casesOn with
  | null => exact ⟨_, _, by rw [write_document], by decide, fun _ => rfl⟩
  | bool value =>
    cases value
    · exact ⟨_, _, by rw [write_document], by decide, fun _ => rfl⟩
    · exact ⟨_, _, by rw [write_document], by decide, fun _ => rfl⟩
  | num n =>
    obtain ⟨c, cs, hwrite, hc⟩ := write_number_head n
    have hne : ∀ other : Char, other ≠ '-' → other.isDigit = false → c ≠ other := by
      rintro other hsign hdigit rfl
      simp [hsign, hdigit] at hc
    refine ⟨c, cs, by rw [write_document, hwrite], hne _ (by decide) (by decide), ?_⟩
    intro rest
    rw [skip_whitespace, List.cons_append, List.dropWhile_cons_of_neg]
    simp only [decide_eq_true_eq, not_or]
    exact ⟨hne _ (by decide) (by decide), hne _ (by decide) (by decide),
      hne _ (by decide) (by decide), hne _ (by decide) (by decide)⟩
  | str s => exact ⟨_, _, by rw [write_document, write_str], by decide, fun _ => rfl⟩
  | arr items => exact ⟨_, _, by rw [write_document], by decide, fun _ => rfl⟩
  | obj members => exact ⟨_, _, by rw [write_document], by decide, fun _ => rfl⟩

/-- Written documents start with a character of their own, so that skipping
    whitespace in front of them changes nothing. -/
theorem skip_whitespace_write_document (j : Json) (rest : List Char) :
    skip_whitespace (write_document j ++ rest) = write_document j ++ rest := by
  obtain ⟨c, cs, hwrite, _, hskip⟩ := write_document_head j
  rw [hwrite, hskip]

/-- Numbers need no budget: they are read back under any. -/
theorem read_value_number (nested : Option (Reader Json)) (n : Integer) {rest : List Char}
    (h : Delimited rest) : read_value nested (write_number n ++ rest) = .ok (.num n, rest) := by
  have hread := read_number_write_number n h
  obtain ⟨c, cs, hwrite, hc⟩ := write_number_head n
  have hne : ∀ (other : Char) (tail : List Char), other ≠ '-' → other.isDigit = false →
      c :: (cs ++ rest) ≠ other :: tail := by
    rintro other tail hsign hdigit heq
    cases heq
    simp [hsign, hdigit] at hc
  rw [hwrite, List.cons_append] at hread ⊢
  rw [read_value, hread, result.ok_bind]
  all_goals intros
  · exact hne 'n' _ (by decide) (by decide) ‹_›
  · exact hne 't' _ (by decide) (by decide) ‹_›
  · exact hne 'f' _ (by decide) (by decide) ‹_›
  · exact hne '"' _ (by decide) (by decide) ‹_›
  · exact hne '[' _ (by decide) (by decide) ‹_›
  · exact hne '{' _ (by decide) (by decide) ‹_›

/-- The items of an array are read in order; the first one that nests too
    deeply stops the reading with that refusal. -/
theorem read_items_write_items {reader : Reader Json} {budget : Nat} {items : List Json}
    (hne : items ≠ [])
    (hitems : ∀ item ∈ items, ∀ rest, Delimited rest →
      reader (write_document item ++ rest) = readOutcome (item.depth ≤ budget) item rest)
    {fuel : Nat} (hfuel : items.length ≤ fuel) (rest : List Char) :
    read_items reader fuel (write_items items ++ ']' :: rest) =
      readOutcome (Json.depthItems items ≤ budget) items rest := by
  induction items generalizing fuel with
  | nil => exact (hne rfl).elim
  | cons item items ih =>
    obtain ⟨fuel, rfl⟩ : ∃ k, fuel = k + 1 := ⟨fuel - 1, by simp at hfuel; omega⟩
    rw [List.forall_mem_cons] at hitems
    cases items with
    | nil =>
      rw [write_items, read_items, skip_whitespace_write_document, hitems.1 _ (delimited_bracket rest)]
      by_cases hfits : item.depth ≤ budget
      · simp [readOutcome, hfits, skip_whitespace, Json.depthItems]
      · simp [readOutcome, hfits, Json.depthItems]
    | cons next items =>
      have hrest : (next :: items).length ≤ fuel := by simpa using hfuel
      have htail := ih (by simp) hitems.2 hrest
      rw [write_items, List.append_assoc, List.cons_append, read_items,
        skip_whitespace_write_document, hitems.1 _ (delimited_comma _)]
      by_cases hfits : item.depth ≤ budget
      · simp only [readOutcome, if_pos hfits, result.ok_bind]
        rw [show ∀ cs, skip_whitespace (',' :: cs) = ',' :: cs from fun _ => rfl]
        simp only [htail, readOutcome, Json.depthItems_cons item, Nat.max_le, hfits, true_and]
        split <;> rfl
      · rw [readOutcome, readOutcome, if_neg hfits, if_neg, result.error_bind]
        rw [Json.depthItems_cons, Nat.max_le]
        exact fun h => hfits h.1

/-- A member that was written is read back when its value is, and refused for its
    nesting when its value is. -/
theorem read_member_write {reader : Reader Json} {budget : Nat} {member : String × Json}
    (hmember : ∀ rest, Delimited rest → reader (write_document member.2 ++ rest) =
      readOutcome (member.2.depth ≤ budget) member.2 rest)
    {rest : List Char} (h : Delimited rest) :
    read_member reader (write_str member.1 ++ ':' :: (write_document member.2 ++ rest)) =
      readOutcome (member.2.depth ≤ budget) member rest := by
  rw [write_str, List.cons_append, List.append_assoc, List.singleton_append, read_member,
    read_str_escape, result.ok_bind]
  simp only [show ∀ cs, skip_whitespace (':' :: cs) = ':' :: cs from fun _ => rfl,
    skip_whitespace_write_document, hmember _ h, readOutcome]
  split <;> rfl

theorem skip_whitespace_write_str (s : String) (rest : List Char) :
    skip_whitespace (write_str s ++ rest) = write_str s ++ rest := rfl

/-- The members up to the closing brace are read back one after the other. The
    first one that nests too deeply ends the reading, and there is one exactly
    when the members as a whole nest too deeply. -/
theorem read_members_write_members {reader : Reader Json} {budget : Nat}
    {members : List (String × Json)} (hne : members ≠ [])
    (hmembers : ∀ member ∈ members, ∀ rest, Delimited rest →
      reader (write_document member.2 ++ rest) = readOutcome (member.2.depth ≤ budget) member.2 rest)
    {fuel : Nat} (hfuel : members.length ≤ fuel) (rest : List Char) :
    read_members reader fuel (write_members members ++ '}' :: rest) =
      readOutcome (Json.depthMembers members ≤ budget) members rest := by
  induction members generalizing fuel with
  | nil => exact (hne rfl).elim
  | cons member members ih =>
    obtain ⟨fuel, rfl⟩ : ∃ k, fuel = k + 1 := ⟨fuel - 1, by simp at hfuel; omega⟩
    rw [List.forall_mem_cons] at hmembers
    cases members with
    | nil =>
      rw [write_members, List.append_assoc, List.cons_append, read_members,
        skip_whitespace_write_str, read_member_write hmembers.1 (delimited_brace rest)]
      by_cases hfits : member.2.depth ≤ budget
      · simp [readOutcome, hfits, skip_whitespace, Json.depthMembers]
      · simp [readOutcome, hfits, Json.depthMembers]
    | cons next members =>
      have hrest : (next :: members).length ≤ fuel := by simpa using hfuel
      have htail := ih (by simp) hmembers.2 hrest
      rw [write_members, List.append_assoc, List.cons_append, List.append_assoc, List.cons_append,
        read_members, skip_whitespace_write_str, read_member_write hmembers.1 (delimited_comma _)]
      by_cases hfits : member.2.depth ≤ budget
      · simp only [readOutcome, if_pos hfits, result.ok_bind]
        rw [show ∀ cs, skip_whitespace (',' :: cs) = ',' :: cs from fun _ => rfl]
        simp only [htail, readOutcome, Json.depthMembers_cons member, Nat.max_le, hfits, true_and]
        split <;> rfl
      · rw [readOutcome, readOutcome, if_neg hfits, if_neg, result.error_bind]
        rw [Json.depthMembers_cons, Nat.max_le]
        exact fun h => hfits h.1

/-- Every item takes at least one character, so that the length of the text is
    fuel enough for reading the items. -/
theorem length_le_write_items (items : List Json) : items.length ≤ (write_items items).length := by
  induction items with
  | nil => simp
  | cons item items ih =>
    obtain ⟨c, cs, hwrite, _⟩ := write_document_head item
    cases items with
    | nil => simp [write_items, hwrite]
    | cons next items =>
      simp only [write_items, hwrite, List.length_cons, List.length_append] at ih ⊢
      omega

theorem length_le_write_members (members : List (String × Json)) :
    members.length ≤ (write_members members).length := by
  induction members with
  | nil => simp
  | cons member members ih =>
    cases members with
    | nil => simp [write_members, write_str]
    | cons next members =>
      simp only [write_members, write_str, List.length_cons, List.length_append] at ih ⊢
      omega

/-- An array is read back from behind its opening bracket, or refused when one of
    the items has to be. -/
theorem read_array_write_items {reader : Reader Json} {budget : Nat} (items : List Json)
    (hitems : ∀ item ∈ items, ∀ rest, Delimited rest →
      reader (write_document item ++ rest) = readOutcome (item.depth ≤ budget) item rest)
    (rest : List Char) :
    read_array reader (write_items items ++ ']' :: rest) =
      readOutcome (Json.depthItems items ≤ budget) (.arr items) rest := by
  cases items with
  | nil =>
    simp [write_items, read_array, skip_whitespace, readOutcome, Json.depthItems]
  | cons item items =>
    have hfuel : (item :: items).length ≤ (write_items (item :: items) ++ ']' :: rest).length + 1 := by
      have hlength := length_le_write_items (item :: items)
      rw [List.length_append]
      omega
    have hread := read_items_write_items (List.cons_ne_nil item items) hitems hfuel rest
    obtain ⟨c, cs, htext, hne, hskip⟩ : ∃ c cs, write_items (item :: items) ++ ']' :: rest = c :: cs ∧
        c ≠ ']' ∧ skip_whitespace (c :: cs) = c :: cs := by
      obtain ⟨c, cs, hwrite, hne, hskip⟩ := write_document_head item
      cases items with
      | nil => exact ⟨c, _, by rw [write_items, hwrite]; rfl, hne, hskip _⟩
      | cons next items =>
        exact ⟨c, _, by rw [write_items, hwrite, List.append_assoc]; rfl, hne, hskip _⟩
    rw [htext] at hread ⊢
    rw [read_array, hskip]
    split
    · next heq =>
      cases heq
      exact (hne rfl).elim
    · simp only [hread, readOutcome]
      split <;> rfl

/-- An object is read back from behind its opening brace, in the same way. The
    empty object is closed at once, and any other one starts with the key of its
    first member. -/
theorem read_object_write_members {reader : Reader Json} {budget : Nat}
    (members : List (String × Json))
    (hmembers : ∀ member ∈ members, ∀ rest, Delimited rest →
      reader (write_document member.2 ++ rest) = readOutcome (member.2.depth ≤ budget) member.2 rest)
    (rest : List Char) :
    read_object reader (write_members members ++ '}' :: rest) =
      readOutcome (Json.depthMembers members ≤ budget) (.obj members) rest := by
  cases members with
  | nil =>
    simp [write_members, read_object, skip_whitespace, readOutcome, Json.depthMembers]
  | cons member members =>
    have hfuel : (member :: members).length ≤
        (write_members (member :: members) ++ '}' :: rest).length + 1 := by
      have hlength := length_le_write_members (member :: members)
      rw [List.length_append]
      omega
    have hread := read_members_write_members (List.cons_ne_nil member members) hmembers hfuel rest
    obtain ⟨cs, htext⟩ : ∃ cs, write_members (member :: members) ++ '}' :: rest = '"' :: cs := by
      cases members with
      | nil => exact ⟨_, rfl⟩
      | cons next members => exact ⟨_, rfl⟩
    rw [htext] at hread ⊢
    have hobject : read_object reader ('"' :: cs) =
        (read_members reader (('"' :: cs).length + 1) ('"' :: cs) >>=
          fun found => .ok (.obj found.1, found.2)) := rfl
    simp only [hobject, hread, readOutcome]
    split <;> rfl

theorem read_value_bracket (reader : Reader Json) (cs : List Char) :
    read_value (some reader) ('[' :: cs) = read_array reader cs := rfl

theorem read_value_brace (reader : Reader Json) (cs : List Char) :
    read_value (some reader) ('{' :: cs) = read_object reader cs := rfl

/-- Reading a written document under a nesting budget gives it back, together
    with all the text behind it, exactly when it nests no deeper than the
    budget. Any deeper document is refused for its nesting alone. -/
theorem read_document_write_document (j : Json) (budget : Nat) {rest : List Char}
    (h : Delimited rest) :
    read_document budget (write_document j ++ rest) = readOutcome (j.depth ≤ budget) j rest := by
  induction j generalizing budget rest with
  | null => rw [read_document_eq]; simp [write_document, read_value, readOutcome, Json.depth]
  | bool value =>
    rw [read_document_eq]
    cases value <;> simp [write_document, read_value, readOutcome, Json.depth]
  | num n =>
    rw [read_document_eq, write_document, read_value_number _ n h]
    simp [readOutcome, Json.depth]
  | str s =>
    rw [read_document_eq, write_document, write_str, List.cons_append, List.append_assoc,
      List.singleton_append, read_value, read_str_escape]
    simp [readOutcome, Json.depth]
  | arr items ih =>
    rw [read_document_eq, write_document, List.cons_append, List.append_assoc, List.singleton_append]
    cases budget with
    | zero =>
      rw [readOutcome, if_neg (by simp)]
      rfl
    | succ budget =>
      rw [nestedReader, read_value_bracket, read_array_write_items items
        (fun item hitem rest hrest => ih item hitem budget hrest) rest]
      simp [readOutcome]
  | obj members ih =>
    rw [read_document_eq, write_document, List.cons_append, List.append_assoc, List.singleton_append]
    cases budget with
    | zero =>
      rw [readOutcome, if_neg (by simp)]
      rfl
    | succ budget =>
      rw [nestedReader, read_value_brace, read_object_write_members members
        (fun member hmember rest hrest => ih member hmember budget hrest) rest]
      simp [readOutcome]

/-- Parsing the text of a document returns the document whenever the limit
    allows its nesting, and reports the recursion limit otherwise. -/
theorem parse_document_write_document (limit : Nat) (j : Json) :
    parse_document limit (write_document j) =
      if j.depth ≤ limit then .ok j else .error .recursion_limit_exceeded := by
  have hread := read_document_write_document j limit delimited_nil
  have hskip := skip_whitespace_write_document j []
  rw [List.append_nil] at hread hskip
  rw [parse_document, hskip, hread, readOutcome]
  split <;> rfl

end json
