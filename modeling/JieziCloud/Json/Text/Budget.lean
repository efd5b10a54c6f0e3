import JieziCloud.Json.Text.RoundTrip

open result

namespace json

theorem readOutcome_of_fits {A : Type} {fits : Prop} [Decidable fits] (h : fits) (a : A)
    (rest : List Char) : readOutcome fits a rest = .ok (a, rest) :=
  if_pos h

theorem readOutcome_of_not_fits {A : Type} {fits : Prop} [Decidable fits] (h : ¬fits) (a : A)
    (rest : List Char) : readOutcome fits a rest = .error .recursion_limit_exceeded :=
  if_neg h

/-- A step after a value has been read under a budget, when the whole of what is
    read then fits the budget exactly if the value does. -/
theorem readOutcome_bind {A B : Type} {fits whole : Prop} [Decidable fits] [Decidable whole] {a : A}
    {b : B} {rest : List Char} {f : A × List Char → Except ParseError B} (h : f (a, rest) = .ok b)
    (hfits : fits ↔ whole) : (readOutcome fits a rest >>= f) =
      if whole then .ok b else .error .recursion_limit_exceeded := by
  by_cases hvalue : fits
  · rw [readOutcome_of_fits hvalue, if_pos (hfits.mp hvalue), ok_bind, h]
  · rw [readOutcome_of_not_fits hvalue, if_neg (mt hfits.mpr hvalue), error_bind]

/-- The second reader reads whatever the first one reads, under a budget of its
    own. -/
def Rebudgeted (reader other : Reader Json) (budget : Nat) : Prop :=
  ∀ {cs j rest}, reader cs = .ok (j, rest) → other cs = readOutcome (j.depth ≤ budget) j rest

/-- How the items of an array are read: one item, and then the closing bracket
    or a comma and further items. -/
theorem read_items_cases {reader : Reader Json} {fuel : Nat} {cs rest : List Char} {items : List Json}
    (h : read_items reader (fuel + 1) cs = .ok (items, rest)) :
    ∃ head cs', reader (skip_whitespace cs) = .ok (head, cs') ∧
      ((skip_whitespace cs' = ']' :: rest ∧ items = [head]) ∨
        ∃ next tail, skip_whitespace cs' = ',' :: next ∧
          read_items reader fuel next = .ok (tail, rest) ∧ items = head :: tail) := by
  rw [read_items] at h
  obtain ⟨⟨head, cs'⟩, hhead, h⟩ := bind_eq_ok_iff.mp h
  refine ⟨head, cs', hhead, ?_⟩
  dsimp only at h
  split at h
  · next hclose =>
    cases h
    exact .inl ⟨hclose, rfl⟩
  · next next hcomma =>
    obtain ⟨⟨tail, last⟩, htail, h⟩ := bind_eq_ok_iff.mp h
    cases h
    exact .inr ⟨next, tail, hcomma, htail, rfl⟩
  · cases h

/-- Items are read again up to the first one that nests too deeply. The
    induction is on the fuel, which both readers spend alike. -/
theorem read_items_rebudgeted {reader other : Reader Json} {budget : Nat}
    (hreader : Rebudgeted reader other budget) {fuel : Nat} {cs rest : List Char} {items : List Json}
    (h : read_items reader fuel cs = .ok (items, rest)) :
    read_items other fuel cs = readOutcome (Json.depthItems items ≤ budget) items rest := by
  induction fuel generalizing cs items rest with
  | zero => cases h
  | succ fuel ih =>
    obtain ⟨head, cs', hhead, hmore⟩ := read_items_cases h
    rw [read_items, hreader hhead]
    obtain ⟨hclose, rfl⟩ | ⟨next, tail, hcomma, htail, rfl⟩ := hmore
    · apply readOutcome_bind
      · simp only [hclose]
      · simp [Json.depthItems]
    · by_cases hdepth : head.depth ≤ budget
      · rw [readOutcome_of_fits hdepth, ok_bind]
        simp only [hcomma, ih htail]
        apply readOutcome_bind
        · rfl
        · rw [Json.depthItems_cons]
          omega
      · have hitems : ¬Json.depthItems (head :: tail) ≤ budget := by
          rw [Json.depthItems_cons]
          omega
        rw [readOutcome_of_not_fits hdepth, readOutcome_of_not_fits hitems, error_bind]

/-- How one member is read: a quoted key, a colon and a value, with whitespace
    between them. Whatever else stands there is refused. -/
theorem read_member_cases {reader : Reader Json} {cs rest : List Char} {member : String × Json}
    (h : read_member reader cs = .ok (member, rest)) :
    ∃ quoted cs' next, cs = '"' :: quoted ∧ read_str quoted = .ok (member.1, cs') ∧
      skip_whitespace cs' = ':' :: next ∧ reader (skip_whitespace next) = .ok (member.2, rest) := by
  unfold read_member at h
  split at h
  · next quoted =>
    obtain ⟨⟨key, cs'⟩, hkey, h⟩ := bind_eq_ok_iff.mp h
    dsimp only at h
    split at h
    · next next hcolon =>
      obtain ⟨⟨j, last⟩, hvalue, h⟩ := bind_eq_ok_iff.mp h
      cases h
      exact ⟨quoted, cs', next, rfl, hkey, hcolon, hvalue⟩
    · cases h
  · cases h

/-- A member is read under another budget as far as its value is: the key is a
    string, and needs no budget at all. -/
theorem read_member_rebudgeted {reader other : Reader Json} {budget : Nat}
    (hreader : Rebudgeted reader other budget) {cs rest : List Char} {member : String × Json}
    (h : read_member reader cs = .ok (member, rest)) :
    read_member other cs = readOutcome (member.2.depth ≤ budget) member rest := by
  obtain ⟨quoted, cs', next, rfl, hkey, hcolon, hvalue⟩ := read_member_cases h
  simp only [read_member, hkey, ok_bind, hcolon, hreader hvalue]
  exact readOutcome_bind rfl Iff.rfl

/-- How the members of an object are read: one member, and then the closing
    brace or a comma and further members. -/
theorem read_members_cases {reader : Reader Json} {fuel : Nat} {cs rest : List Char}
    {members : List (String × Json)} (h : read_members reader (fuel + 1) cs = .ok (members, rest)) :
    ∃ head cs', read_member reader (skip_whitespace cs) = .ok (head, cs') ∧
      ((skip_whitespace cs' = '}' :: rest ∧ members = [head]) ∨
        ∃ next tail, skip_whitespace cs' = ',' :: next ∧
          read_members reader fuel next = .ok (tail, rest) ∧ members = head :: tail) := by
  rw [read_members] at h
  obtain ⟨⟨head, cs'⟩, hhead, h⟩ := bind_eq_ok_iff.mp h
  refine ⟨head, cs', hhead, ?_⟩
  dsimp only at h
  split at h
  · next hclose =>
    cases h
    exact .inl ⟨hclose, rfl⟩
  · next next hcomma =>
    obtain ⟨⟨tail, last⟩, htail, h⟩ := bind_eq_ok_iff.mp h
    cases h
    exact .inr ⟨next, tail, hcomma, htail, rfl⟩
  · cases h

/-- Members are read again up to the first one that nests too deeply. The
    induction is on the fuel, which both readings use up alike. -/
theorem read_members_rebudgeted {reader other : Reader Json} {budget : Nat}
    (hreader : Rebudgeted reader other budget) {fuel : Nat} {cs rest : List Char}
    {members : List (String × Json)} (h : read_members reader fuel cs = .ok (members, rest)) :
    read_members other fuel cs = readOutcome (Json.depthMembers members ≤ budget) members rest := by
  induction fuel generalizing cs members rest with
  | zero => cases h
  | succ fuel ih =>
    obtain ⟨head, cs', hhead, hmore⟩ := read_members_cases h
    rw [read_members, read_member_rebudgeted hreader hhead]
    obtain ⟨hclose, rfl⟩ | ⟨next, tail, hcomma, htail, rfl⟩ := hmore
    · apply readOutcome_bind
      · simp only [hclose]
      · rw [Json.depthMembers_cons]
        simp [Json.depthMembers]
    · by_cases hdepth : head.2.depth ≤ budget
      · rw [readOutcome_of_fits hdepth, ok_bind]
        simp only [hcomma, ih htail]
        apply readOutcome_bind
        · rfl
        · rw [Json.depthMembers_cons]
          omega
      · have hmembers : ¬Json.depthMembers (head :: tail) ≤ budget := by
          rw [Json.depthMembers_cons]
          omega
        rw [readOutcome_of_not_fits hdepth, readOutcome_of_not_fits hmembers, error_bind]

/-- Arrays and objects nest at least the level that they open themselves. -/
theorem read_array_depth_pos {reader : Reader Json} {cs rest : List Char} {j : Json}
    (h : read_array reader cs = .ok (j, rest)) : 0 < j.depth := by
  unfold read_array at h
  split at h
  · cases h
    simp
  · obtain ⟨⟨items, cs'⟩, _, h⟩ := bind_eq_ok_iff.mp h
    cases h
    simp

/-- What starts with a brace is an object, and nests at least the one level that
    it opens. -/
theorem read_object_depth_pos {reader : Reader Json} {cs rest : List Char} {j : Json}
    (h : read_object reader cs = .ok (j, rest)) : 0 < j.depth := by
  unfold read_object at h
  split at h
  · cases h
    simp
  · obtain ⟨⟨members, cs'⟩, _, h⟩ := bind_eq_ok_iff.mp h
    cases h
    simp

/-- An array spends one level of the budget, also when it is empty. -/
theorem read_array_rebudgeted {reader other : Reader Json} {budget : Nat}
    (hreader : Rebudgeted reader other budget) {cs rest : List Char} {j : Json}
    (h : read_array reader cs = .ok (j, rest)) :
    read_array other cs = readOutcome (j.depth ≤ budget + 1) j rest := by
  unfold read_array at h ⊢
  split at h
  · cases h
    simp [readOutcome, Json.depthItems]
  · obtain ⟨⟨items, cs'⟩, hitems, h⟩ := bind_eq_ok_iff.mp h
    cases h
    rw [read_items_rebudgeted hreader hitems, Json.depth_arr]
    exact readOutcome_bind rfl Nat.add_le_add_iff_right.symm

/-- An object spends one level of the budget, also when it is empty. -/
theorem read_object_rebudgeted {reader other : Reader Json} {budget : Nat}
    (hreader : Rebudgeted reader other budget) {cs rest : List Char} {j : Json}
    (h : read_object reader cs = .ok (j, rest)) :
    read_object other cs = readOutcome (j.depth ≤ budget + 1) j rest := by
  unfold read_object at h ⊢
  split at h
  · cases h
    simp [readOutcome, Json.depthMembers]
  · obtain ⟨⟨members, cs'⟩, hmembers, h⟩ := bind_eq_ok_iff.mp h
    cases h
    rw [read_members_rebudgeted hreader hmembers, Json.depth_obj]
    exact readOutcome_bind rfl Nat.add_le_add_iff_right.symm

/-- How a value is read again: the values nested in it by a reader with one
    level less to spend, or by none when the budget is spent. -/
def RebudgetedNested (reader : Reader Json) : Option (Reader Json) → Nat → Prop
  | none, budget => budget = 0
  | some other, budget => ∃ inner, budget = inner + 1 ∧ Rebudgeted reader other inner

/-- A value is read again within the budget. Only arrays and objects spend any
    of it; the other values are read whatever is left. -/
theorem read_value_rebudgeted {nested other : Option (Reader Json)} {budget : Nat}
    (hnested : ∀ reader, nested = some reader → RebudgetedNested reader other budget)
    {cs rest : List Char} {j : Json} (h : read_value nested cs = .ok (j, rest)) :
    read_value other cs = readOutcome (j.depth ≤ budget) j rest := by
  unfold read_value at h ⊢
  split at h
  case h_5 =>
    obtain _ | reader := nested
    · cases h
    have hreader := hnested reader rfl
    obtain _ | other := other
    · cases hreader
      exact (readOutcome_of_not_fits (Nat.not_le_of_lt (read_array_depth_pos h)) j rest).symm
    · obtain ⟨inner, rfl, hreader⟩ := hreader
      exact read_array_rebudgeted hreader h
  case h_6 =>
    obtain _ | reader := nested
    · cases h
    have hreader := hnested reader rfl
    obtain _ | other := other
    · cases hreader
      exact (readOutcome_of_not_fits (Nat.not_le_of_lt (read_object_depth_pos h)) j rest).symm
    · obtain ⟨inner, rfl, hreader⟩ := hreader
      exact read_object_rebudgeted hreader h
  case h_4 | h_7 =>
    obtain ⟨⟨scalar, cs'⟩, hscalar, h⟩ := bind_eq_ok_iff.mp h
    cases h
    simp only [hscalar, ok_bind]
    exact (readOutcome_of_fits (by simp [Json.depth]) _ rest).symm
  all_goals
    cases h
    exact (readOutcome_of_fits (by simp [Json.depth]) _ rest).symm

/-- A document that is read within one budget is read within every other one,
    unless it nests too deeply for it. The induction is on the first budget. -/
theorem read_document_rebudgeted (budget limit : Nat) :
    Rebudgeted (read_document budget) (read_document limit) limit := by
  induction budget generalizing limit with
  | zero =>
    intro cs j rest h
    rw [read_document_eq] at h ⊢
    apply read_value_rebudgeted _ h
    intro reader heq
    cases heq
  | succ budget ih =>
    intro cs j rest h
    rw [read_document_eq] at h ⊢
    refine read_value_rebudgeted ?_ h
    intro reader heq
    cases heq
    cases limit with
    | zero => exact rfl
    | succ limit => exact ⟨limit, rfl, ih limit⟩

/-- The same for whole texts: the limit decides whether a text is read, and has
    no part in what it is read as. -/
theorem parse_document_rebudgeted {budget limit : Nat} {cs : List Char} {j : Json}
    (h : parse_document budget cs = .ok j) : parse_document limit cs =
      if j.depth ≤ limit then .ok j else .error .recursion_limit_exceeded := by
  rw [parse_document] at h ⊢
  obtain ⟨⟨document, rest⟩, hread, h⟩ := bind_eq_ok_iff.mp h
  dsimp only at h
  split at h
  · next hend =>
    cases h
    rw [read_document_rebudgeted budget limit hread]
    apply readOutcome_bind
    · simp only [hend]
    · rfl
  · cases h

end json
