import JieziCloud.Json.Basic
import JieziCloud.Result

namespace json

/-- Why a text is refused. `number_out_of_range` stands for every number that
    is not an integer of 64 bits, fractions and exponents included. -/
inductive ParseError where
  | malformed
  | number_out_of_range
  | recursion_limit_exceeded
  | trailing_characters
  deriving DecidableEq

/-- What may follow a value inside a compact text: the end, or the punctuation
    that separates or closes. No number continues past it. -/
def Delimited (rest : List Char) : Prop :=
  ∀ c, rest.head? = some c → c = ',' ∨ c = ']' ∨ c = '}'

@[simp] theorem delimited_nil : Delimited [] := by simp [Delimited]

@[simp] theorem delimited_comma (rest : List Char) : Delimited (',' :: rest) := by simp [Delimited]

@[simp] theorem delimited_bracket (rest : List Char) : Delimited (']' :: rest) := by simp [Delimited]

@[simp] theorem delimited_brace (rest : List Char) : Delimited ('}' :: rest) := by simp [Delimited]

def write_number (n : Integer) : List Char :=
  if n.val < 0 then '-' :: Nat.toDigits 10 n.val.natAbs else Nat.toDigits 10 n.val.natAbs

/-- The digits of an unsigned number: no leading zero, and neither a fraction
    nor an exponent behind them. -/
def read_digits (cs : List Char) : Except ParseError (Nat × List Char) :=
  let digits := cs.takeWhile Char.isDigit
  let rest := cs.dropWhile Char.isDigit
  if digits = [] then .error .malformed
  else if digits.head? = some '0' ∧ digits ≠ ['0'] then .error .malformed
  else if rest.head? = some '.' ∨ rest.head? = some 'e' ∨ rest.head? = some 'E' then
    .error .number_out_of_range
  else .ok (Nat.ofDigitChars 10 digits 0, rest)

def integer_of (val : Int) : Except ParseError Integer :=
  if h : -2 ^ 63 ≤ val ∧ val < 2 ^ 64 then .ok ⟨val, h.1, h.2⟩ else .error .number_out_of_range

/-- A number with its sign. Negative zero is not an integer of the format. -/
def read_number : List Char → Except ParseError (Integer × List Char)
  | '-' :: cs => do
    let (magnitude, rest) ← read_digits cs
    if magnitude = 0 then .error .number_out_of_range
    else
      let n ← integer_of (-(magnitude : Int))
      .ok (n, rest)
  | cs => do
    let (magnitude, rest) ← read_digits cs
    let n ← integer_of magnitude
    .ok (n, rest)

/-- Only zero is written with a leading zero, which the reader refuses in front of
    further digits. -/
theorem head_toDigits_eq_zero {n : Nat} (h : (Nat.toDigits 10 n).head? = some '0') : n = 0 := by
  induction n using Nat.strongRecOn with
  | _ n ih =>
    rw [Nat.toDigits_eq_if (by decide)] at h
    split at h
    · simpa using h
    · next hlarge =>
      rw [List.head?_append_of_ne_nil _ Nat.toDigits_ne_nil] at h
      have hquot := ih (n / 10) (by omega) h
      omega

theorem isDigit_head_toDigits {n : Nat} {c : Char} {cs : List Char}
    (h : Nat.toDigits 10 n = c :: cs) : c.isDigit = true :=
  Nat.isDigit_of_mem_toDigits (by decide) (by decide) (h ▸ List.mem_cons_self)

/-- What follows a value cannot be taken for one more digit of a number. -/
theorem Delimited.not_isDigit {rest : List Char} (h : Delimited rest) {c : Char}
    (hc : rest.head? = some c) : c.isDigit = false := by
  obtain rfl | rfl | rfl := h c hc <;> rfl

/-- The reader takes exactly the digits that were written, and stops at the
    delimiter. -/
theorem read_digits_toDigits (n : Nat) {rest : List Char} (h : Delimited rest) :
    read_digits (Nat.toDigits 10 n ++ rest) = .ok (n, rest) := by
  have hdigits : ∀ c ∈ Nat.toDigits 10 n, c.isDigit = true := fun c hc =>
    Nat.isDigit_of_mem_toDigits (by decide) (by decide) hc
  have htake : (Nat.toDigits 10 n ++ rest).takeWhile Char.isDigit = Nat.toDigits 10 n := by
    rw [List.takeWhile_append_of_pos hdigits]
    cases rest with
    | nil => simp
    | cons c cs => simp [h.not_isDigit (c := c) rfl]
  have hdrop : (Nat.toDigits 10 n ++ rest).dropWhile Char.isDigit = rest := by
    rw [List.dropWhile_append_of_pos hdigits]
    cases rest with
    | nil => rfl
    | cons c cs => rw [List.dropWhile_cons_of_neg (by simp [h.not_isDigit (c := c) rfl])]
  have hzero : ¬ ((Nat.toDigits 10 n).head? = some '0' ∧ Nat.toDigits 10 n ≠ ['0']) := by
    rintro ⟨hhead, hne⟩
    rw [head_toDigits_eq_zero hhead, Nat.toDigits_zero] at hne
    exact hne rfl
  have hrest : ¬ (rest.head? = some '.' ∨ rest.head? = some 'e' ∨ rest.head? = some 'E') := by
    rintro (hc | hc | hc) <;> simpa using h _ hc
  unfold read_digits
  simp only [htake, hdrop]
  rw [if_neg Nat.toDigits_ne_nil, if_neg hzero, if_neg hrest, Nat.ofDigitChars_ten_toDigits]

theorem integer_of_val (n : Integer) : integer_of n.val = .ok n := by
  rw [integer_of, dif_pos ⟨n.lower, n.upper⟩]

/-- A number starts with a sign or a digit, and so with no character that opens a
    string, an array or an object. -/
theorem write_number_head (n : Integer) :
    ∃ c cs, write_number n = c :: cs ∧ (c = '-' ∨ c.isDigit = true) := by
  unfold write_number
  split
  · exact ⟨_, _, rfl, .inl rfl⟩
  · cases hdigits : Nat.toDigits 10 n.val.natAbs with
    | nil => exact (Nat.toDigits_ne_nil hdigits).elim
    | cons c cs => exact ⟨c, cs, rfl, .inr (isDigit_head_toDigits hdigits)⟩

/-- A text that starts with a digit is read without a sign. -/
theorem read_number_of_isDigit {c : Char} (hc : c.isDigit = true) (cs : List Char) :
    read_number (c :: cs) = (do
      let (magnitude, rest) ← read_digits (c :: cs)
      let n ← integer_of magnitude
      .ok (n, rest)) := by
  rw [read_number]
  rintro cs' heq
  cases heq
  exact absurd hc (by decide)

/-- Negative numbers are read back from the sign and the digits of their absolute
    value. -/
theorem read_number_negative (n : Integer) (hneg : n.val < 0) {rest : List Char}
    (h : Delimited rest) :
    read_number ('-' :: Nat.toDigits 10 n.val.natAbs ++ rest) = .ok (n, rest) := by
  have hmagnitude : -(n.val.natAbs : Int) = n.val := by omega
  have hne : n.val.natAbs ≠ 0 := by omega
  simp only [List.cons_append, read_number, read_digits_toDigits _ h, result.ok_bind, if_neg hne,
    hmagnitude, integer_of_val]

/-- The other numbers are read back from their digits alone. A leading zero is the
    number zero. -/
theorem read_number_nonnegative (n : Integer) (hpos : ¬ n.val < 0) {rest : List Char}
    (h : Delimited rest) :
    read_number (Nat.toDigits 10 n.val.natAbs ++ rest) = .ok (n, rest) := by
  have hmagnitude : (n.val.natAbs : Int) = n.val := by omega
  have hread := read_digits_toDigits n.val.natAbs h
  cases hdigits : Nat.toDigits 10 n.val.natAbs with
  | nil => exact (Nat.toDigits_ne_nil hdigits).elim
  | cons c cs =>
    rw [hdigits] at hread
    rw [List.cons_append, read_number_of_isDigit (isDigit_head_toDigits hdigits), ← List.cons_append,
      hread, result.ok_bind]
    change (integer_of (n.val.natAbs : Int) >>= fun m => .ok (m, rest)) = _
    rw [hmagnitude, integer_of_val, result.ok_bind]

/-- Reading back a written number consumes its digits and nothing else. -/
theorem read_number_write_number (n : Integer) {rest : List Char} (h : Delimited rest) :
    read_number (write_number n ++ rest) = .ok (n, rest) := by
  unfold write_number
  by_cases hneg : n.val < 0
  · rw [if_pos hneg]
    exact read_number_negative n hneg h
  · rw [if_neg hneg]
    exact read_number_nonnegative n hneg h

end json
