import JieziCloud.Hex
import JieziCloud.Json.Text.Number

open hex

namespace json

/-- A character inside quotes: the two reserved characters and the control
    characters are escaped, everything else stands for itself. -/
def escape (c : Char) : List Char :=
  if c = '"' then ['\\', '"']
  else if c = '\\' then ['\\', '\\']
  else if c = '\x08' then ['\\', 'b']
  else if c = '\x09' then ['\\', 't']
  else if c = '\x0a' then ['\\', 'n']
  else if c = '\x0c' then ['\\', 'f']
  else if c = '\x0d' then ['\\', 'r']
  else if c.toNat < 32 then
    ['\\', 'u', '0', '0', (c.toNat / 16).digitChar, (c.toNat % 16).digitChar]
  else [c]

def write_str (s : String) : List Char :=
  '"' :: (s.toList.flatMap escape ++ ['"'])

def hex_code (a b c d : Char) : Option Nat := do
  return (((← hex_value a) * 16 + (← hex_value b)) * 16 + (← hex_value c)) * 16 + (← hex_value d)

def unescape : Char → Option Char
  | '"' => some '"'
  | '\\' => some '\\'
  | '/' => some '/'
  | 'b' => some '\x08'
  | 't' => some '\x09'
  | 'n' => some '\x0a'
  | 'f' => some '\x0c'
  | 'r' => some '\x0d'
  | _ => none

/-- The low half of a surrogate pair, which must follow a high half. -/
def read_low_surrogate (high : Nat) : List Char → Except ParseError (Char × List Char)
  | '\\' :: 'u' :: a :: b :: c :: d :: cs =>
    match hex_code a b c d with
    | some low =>
      if 0xDC00 ≤ low ∧ low < 0xE000 then
        .ok (Char.ofNat (0x10000 + (high - 0xD800) * 0x400 + (low - 0xDC00)), cs)
      else .error .malformed
    | none => .error .malformed
  | _ => .error .malformed

def read_escape : List Char → Except ParseError (Char × List Char)
  | 'u' :: a :: b :: c :: d :: cs =>
    match hex_code a b c d with
    | some code =>
      if 0xD800 ≤ code ∧ code < 0xDC00 then read_low_surrogate code cs
      else if 0xDC00 ≤ code ∧ code < 0xE000 then .error .malformed
      else .ok (Char.ofNat code, cs)
    | none => .error .malformed
  | c :: cs =>
    match unescape c with
    | some c => .ok (c, cs)
    | none => .error .malformed
  | [] => .error .malformed

def read_char : List Char → Except ParseError (Char × List Char)
  | '\\' :: cs => read_escape cs
  | c :: cs => if c.toNat < 32 then .error .malformed else .ok (c, cs)
  | [] => .error .malformed

/-- The characters up to the closing quote. Every round consumes a character
    of the text, so its length is fuel enough. -/
def read_quoted : Nat → List Char → Except ParseError (List Char × List Char)
  | 0, _ => .error .malformed
  | _ + 1, '"' :: cs => .ok ([], cs)
  | fuel + 1, cs => do
    let (c, cs) ← read_char cs
    let (s, cs) ← read_quoted fuel cs
    .ok (c :: s, cs)

def read_str (cs : List Char) : Except ParseError (String × List Char) := do
  let (s, cs) ← read_quoted (cs.length + 1) cs
  .ok (String.ofList s, cs)

/-- A control character is read back from the four hexadecimal digits that it is
    escaped with. -/
theorem read_char_control {c : Char} (h : c.toNat < 32) (rest : List Char) :
    read_char ('\\' :: 'u' :: '0' :: '0' :: (c.toNat / 16).digitChar ::
      (c.toNat % 16).digitChar :: rest) = .ok (c, rest) := by
  have hzero : hex_value '0' = some 0 := by decide
  have hcode : hex_code '0' '0' (c.toNat / 16).digitChar (c.toNat % 16).digitChar = some c.toNat := by
    simp only [hex_code, hzero, hex_value_digitChar (show c.toNat / 16 < 16 by omega),
      hex_value_digitChar (show c.toNat % 16 < 16 by omega), bind, Option.bind, pure, Option.some.injEq]
    omega
  simp only [read_char, read_escape, hcode]
  rw [if_neg (by omega), if_neg (by omega), Char.ofNat_toNat]

/-- What an escape can be: a backslash and a letter, the number of a control
    character, or the character itself. -/
theorem escape_cases (c : Char) :
    (∃ letter, escape c = ['\\', letter] ∧ letter ≠ 'u' ∧ unescape letter = some c) ∨
    (c.toNat < 32 ∧
      escape c = ['\\', 'u', '0', '0', (c.toNat / 16).digitChar, (c.toNat % 16).digitChar]) ∨
    (c ≠ '"' ∧ c ≠ '\\' ∧ ¬c.toNat < 32 ∧ escape c = [c]) := by
  by_cases hquote : c = '"'
  · subst hquote
    exact .inl ⟨'"', rfl, by decide, rfl⟩
  by_cases hslash : c = '\\'
  · subst hslash
    exact .inl ⟨'\\', rfl, by decide, rfl⟩
  by_cases hback : c = '\x08'
  · subst hback
    exact .inl ⟨'b', rfl, by decide, rfl⟩
  by_cases htab : c = '\x09'
  · subst htab
    exact .inl ⟨'t', rfl, by decide, rfl⟩
  by_cases hline : c = '\x0a'
  · subst hline
    exact .inl ⟨'n', rfl, by decide, rfl⟩
  by_cases hform : c = '\x0c'
  · subst hform
    exact .inl ⟨'f', rfl, by decide, rfl⟩
  by_cases hreturn : c = '\x0d'
  · subst hreturn
    exact .inl ⟨'r', rfl, by decide, rfl⟩
  rw [escape, if_neg hquote, if_neg hslash, if_neg hback, if_neg htab, if_neg hline, if_neg hform,
    if_neg hreturn]
  by_cases hcontrol : c.toNat < 32
  · exact .inr (.inl ⟨hcontrol, if_pos hcontrol⟩)
  · exact .inr (.inr ⟨hquote, hslash, hcontrol, if_neg hcontrol⟩)

/-- Whatever its escape, a character is read back as itself. -/
theorem read_char_escape (c : Char) (rest : List Char) :
    read_char (escape c ++ rest) = .ok (c, rest) := by
  obtain ⟨letter, hescape, hletter, hread⟩ | ⟨hcontrol, hescape⟩ | ⟨_, hslash, hcontrol, hescape⟩ :=
    escape_cases c
  · rw [hescape, List.cons_append, List.singleton_append, read_char, read_escape, hread]
    rintro _ _ _ _ _ rfl
    exact absurd rfl hletter
  · rw [hescape]
    exact read_char_control hcontrol rest
  · rw [hescape, List.singleton_append, read_char, if_neg hcontrol]
    exact hslash

/-- No escaped character starts with a quotation mark, so that none ends the
    string early. -/
theorem escape_ne_quote (c : Char) (rest : List Char) :
    ∃ head tail, escape c ++ rest = head :: tail ∧ head ≠ '"' := by
  obtain ⟨letter, hescape, _⟩ | ⟨_, hescape⟩ | ⟨hquote, _, _, hescape⟩ := escape_cases c
  · rw [hescape]
    exact ⟨_, _, rfl, by decide⟩
  · rw [hescape]
    exact ⟨_, _, rfl, by decide⟩
  · rw [hescape]
    exact ⟨_, _, rfl, hquote⟩

/-- Escaping and unescaping are inverse on whole strings: the reader stops at the
    closing quotation mark and nowhere before. The fuel only has to exceed the
    number of characters. -/
theorem read_quoted_escape (s : List Char) {fuel : Nat} (hfuel : s.length < fuel)
    (rest : List Char) :
    read_quoted fuel (s.flatMap escape ++ '"' :: rest) = .ok (s, rest) := by
  induction s generalizing fuel with
  | nil =>
    obtain ⟨fuel, rfl⟩ : ∃ k, fuel = k + 1 := ⟨fuel - 1, by simp at hfuel; omega⟩
    rfl
  | cons c s ih =>
    obtain ⟨fuel, rfl⟩ : ∃ k, fuel = k + 1 := ⟨fuel - 1, by simp at hfuel; omega⟩
    rw [List.flatMap_cons, List.append_assoc]
    obtain ⟨head, tail, hsplit, hne⟩ := escape_ne_quote c (s.flatMap escape ++ '"' :: rest)
    have hchar := read_char_escape c (s.flatMap escape ++ '"' :: rest)
    rw [hsplit] at hchar ⊢
    rw [read_quoted, hchar, result.ok_bind]
    · simp only [ih (by simpa using hfuel), result.ok_bind]
    · rintro cs heq
      cases heq
      exact hne rfl

theorem length_le_flatMap_escape (s : List Char) : s.length ≤ (s.flatMap escape).length := by
  induction s with
  | nil => simp
  | cons c s ih =>
    obtain ⟨head, tail, hsplit, _⟩ := escape_ne_quote c []
    rw [List.append_nil] at hsplit
    simp only [List.flatMap_cons, List.length_append, List.length_cons, hsplit]
    omega

/-- A quoted string is read back up to its closing quote and no further. -/
theorem read_str_escape (s : String) (rest : List Char) :
    read_str (s.toList.flatMap escape ++ '"' :: rest) = .ok (s, rest) := by
  have hlength := length_le_flatMap_escape s.toList
  have hfuel : s.toList.length < (s.toList.flatMap escape ++ '"' :: rest).length + 1 := by
    rw [List.length_append]
    omega
  rw [read_str, read_quoted_escape s.toList hfuel, result.ok_bind]
  simp only [String.ofList_toList]

end json
