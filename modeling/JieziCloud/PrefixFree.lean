import Mathlib.Data.List.Basic

namespace code_words

variable {A B : Type}

/-- The end of a code word shows in whatever text follows it, so that a text
    starts with at most one code word. -/
def PrefixFree (code : A → List Char) : Prop :=
  ∀ a b {left right : List Char}, code a ++ left = code b ++ right → a = b ∧ left = right

/-- It is enough that no code word starts another one. -/
theorem prefixFree_of_starts {code : A → List Char}
    (h : ∀ a b, code a <+: code b → a = b) : PrefixFree code := by
  intro a b left right htext
  have hboth := List.prefix_or_prefix_of_prefix (List.prefix_append (code a) left)
    (htext ▸ List.prefix_append (code b) right)
  have heq : a = b := by
    obtain hab | hba := hboth
    · exact h a b hab
    · exact (h b a hba).symm
  subst heq
  exact ⟨rfl, List.append_cancel_left htext⟩

/-- Different words of one length never begin one another. -/
theorem prefixFree_of_length {code : A → List Char} {length : Nat}
    (hlength : ∀ a, (code a).length = length) (hinjective : Function.Injective code) :
    PrefixFree code := by
  apply prefixFree_of_starts
  intro a b hstarts
  exact hinjective (hstarts.eq_of_length ((hlength a).trans (hlength b).symm))

/-- Fixed texts around the code words make no difference. -/
theorem PrefixFree.between {code : A → List Char} (h : PrefixFree code) (before after : List Char) :
    PrefixFree fun a => before ++ (code a ++ after) := by
  intro a b left right htext
  simp only [List.append_assoc] at htext
  obtain ⟨heq, hrest⟩ := h a b (List.append_cancel_left htext)
  exact ⟨heq, List.append_cancel_left hrest⟩

/-- Two prefix-free codes one after the other are a prefix-free code of pairs: the
    first word can be cut off before the second is looked at. -/
theorem PrefixFree.prod {code : A → List Char} {other : B → List Char} (h : PrefixFree code)
    (hother : PrefixFree other) : PrefixFree fun pair : A × B => code pair.1 ++ other pair.2 := by
  rintro ⟨a, b⟩ ⟨a', b'⟩ left right htext
  simp only [List.append_assoc] at htext
  obtain ⟨rfl, hrest⟩ := h a a' htext
  obtain ⟨rfl, hright⟩ := hother b b' hrest
  exact ⟨rfl, hright⟩

theorem PrefixFree.comp {code : A → List Char} (h : PrefixFree code) {f : B → A}
    (hf : Function.Injective f) : PrefixFree fun b => code (f b) := by
  intro a b left right htext
  obtain ⟨heq, hrest⟩ := h (f a) (f b) htext
  exact ⟨hf heq, hrest⟩

/-- A code word determines what it stands for. -/
theorem PrefixFree.injective {code : A → List Char} (h : PrefixFree code) :
    Function.Injective code := by
  intro a b heq
  have htext : code a ++ [] = code b ++ [] := by rw [heq]
  exact (h a b htext).1

end code_words
