import TagTemplate.Text.Basic

/-! # Quoted text

Inside quotes a backslash stands before a quote or a backslash that is meant as itself.

* `escape` writes a text for use inside quotes, and `quoted` puts the quotes around it.
* `unquote` reads the inside of quotes by two replacements, of the escaped quote and then of the
  escaped backslash.
* `unescape` reads the inside of quotes in one pass from left to right. -/

namespace TagTemplate.Text

/-- The text with a backslash before every backslash and every `quote`. -/
def escape (quote : Char) : List Char → List Char
  | [] => []
  | c :: s => if c = '\\' ∨ c = quote then '\\' :: c :: escape quote s else c :: escape quote s

def quoted (quote : Char) (s : List Char) : List Char :=
  quote :: escape quote s ++ [quote]

/-- The text that the inside of quotes denotes. -/
def unquote (quote : Char) (inside : List Char) : List Char :=
  replace ['\\', '\\'] ['\\'] (replace ['\\', quote] [quote] inside)

/-- One pass over the inside of quotes: an escaped backslash or quote stands for itself, any other
backslash is kept. -/
def unescape (quote : Char) : List Char → List Char
  | [] => []
  | '\\' :: c :: s =>
    if c = '\\' ∨ c = quote then c :: unescape quote s else '\\' :: unescape quote (c :: s)
  | c :: s => c :: unescape quote s

theorem unescape_escape {quote : Char} (s : List Char) : unescape quote (escape quote s) = s := by
  induction s with
  | nil => rfl
  | cons c s ih =>
    simp only [escape]
    split
    · next h => simp [unescape, h, ih]
    · next h =>
      rw [not_or] at h
      rw [unescape, ih]
      intro _ _ hc
      exact absurd hc h.1

end TagTemplate.Text
