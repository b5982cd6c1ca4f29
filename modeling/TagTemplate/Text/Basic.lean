/-! # Texts as lists of characters

Searching, cutting and replacing inside a text, where the text is its list of characters.

* `cut` splits at the first occurrence of a pattern; `append_of_cut` says that nothing is lost.
* `pieces` splits at every occurrence, from left to right and without overlap.
* `replace` writes a new text for every occurrence that `pieces` splits at.
* `joined` puts texts together with a text in between.
* `byteLength` is the length in UTF-8, the unit of every span. -/

namespace TagTemplate.Text

/-! ### Lengths -/

/-- Number of bytes of a text in UTF-8. -/
def byteLength : List Char → Nat
  | [] => 0
  | c :: cs => c.utf8Size + byteLength cs

@[simp] theorem byteLength_nil : byteLength [] = 0 := rfl

@[simp] theorem byteLength_cons (c : Char) (cs : List Char) :
    byteLength (c :: cs) = c.utf8Size + byteLength cs := rfl

@[simp] theorem byteLength_append (a b : List Char) :
    byteLength (a ++ b) = byteLength a + byteLength b := by
  induction a with
  | nil => simp
  | cons c a ih => simp [ih, Nat.add_assoc]

/-! ### Prefixes and suffixes -/

/-- The text after `pat`, when the text starts with `pat`. -/
def dropPrefix? : List Char → List Char → Option (List Char)
  | [], s => some s
  | _ :: _, [] => none
  | p :: pat, c :: s => if p = c then dropPrefix? pat s else none

theorem eq_append_of_dropPrefix? {pat s rest : List Char} (h : dropPrefix? pat s = some rest) :
    s = pat ++ rest := by
  induction pat generalizing s with
  | nil => simpa [dropPrefix?] using h
  | cons p pat ih =>
    cases s with
    | nil => simp [dropPrefix?] at h
    | cons c s =>
      simp only [dropPrefix?] at h
      split at h
      · next hpc => rw [ih h, hpc]; rfl
      · simp at h

@[simp] theorem dropPrefix?_append (pat rest : List Char) :
    dropPrefix? pat (pat ++ rest) = some rest := by
  induction pat with
  | nil => rfl
  | cons p pat ih => simpa [dropPrefix?] using ih

/-- The text before `pat`, when the text ends with `pat`. -/
def dropSuffix? (pat s : List Char) : Option (List Char) :=
  (dropPrefix? pat.reverse s.reverse).map List.reverse

theorem eq_append_of_dropSuffix? {pat s init : List Char} (h : dropSuffix? pat s = some init) :
    s = init ++ pat := by
  obtain ⟨r, hr, rfl⟩ := Option.map_eq_some_iff.mp h
  have := congrArg List.reverse (eq_append_of_dropPrefix? hr)
  simpa using this

/-! ### Cutting -/

/-- The text before and after the first occurrence of `pat`. -/
def cut (pat : List Char) : List Char → Option (List Char × List Char)
  | [] => if pat = [] then some ([], []) else none
  | c :: s =>
    match dropPrefix? pat (c :: s) with
    | some rest => some ([], rest)
    | none => (cut pat s).map fun p => (c :: p.1, p.2)

theorem append_of_cut {pat s a b : List Char} (h : cut pat s = some (a, b)) :
    s = a ++ pat ++ b := by
  induction s generalizing a b with
  | nil =>
    simp only [cut] at h
    split at h
    · next hp => simp at h; obtain ⟨rfl, rfl⟩ := h; simp [hp]
    · simp at h
  | cons c s ih =>
    simp only [cut] at h
    split at h
    · next rest hr =>
      simp at h
      obtain ⟨rfl, rfl⟩ := h
      simpa using eq_append_of_dropPrefix? hr
    · obtain ⟨⟨a', b'⟩, hab, he⟩ := Option.map_eq_some_iff.mp h
      simp at he
      obtain ⟨rfl, rfl⟩ := he
      rw [ih hab]; simp

theorem length_lt_of_cut {pat s a b : List Char} (hp : pat ≠ []) (h : cut pat s = some (a, b)) :
    b.length < s.length := by
  have := List.length_pos_iff.mpr hp
  rw [append_of_cut h]
  simp; omega

/-- There is nothing to cut at a character that does not occur. -/
theorem cut_single_of_not_mem {c : Char} {s : List Char} (h : c ∉ s) : cut [c] s = none := by
  induction s with
  | nil => rfl
  | cons d s ih =>
      rw [List.mem_cons, not_or] at h
      obtain ⟨hne, hs⟩ := h
      simp only [cut, dropPrefix?, if_neg hne, ih hs]
      rfl

/-- A text is cut at the first occurrence of a character. -/
theorem cut_single_append {c : Char} {a : List Char} (h : c ∉ a) (b : List Char) :
    cut [c] (a ++ c :: b) = some (a, b) := by
  induction a with
  | nil => simp [cut, dropPrefix?]
  | cons d a ih =>
      rw [List.mem_cons, not_or] at h
      obtain ⟨hne, ha⟩ := h
      simp only [List.cons_append, cut, dropPrefix?, if_neg hne, ih ha]
      rfl

/-- The texts between the occurrences of `pat`, taken from left to right without overlap.  An
empty `pat` cuts nothing. -/
def pieces (pat s : List Char) : List (List Char) :=
  if _hp : pat = [] then [s] else
  match _h : cut pat s with
  | none => [s]
  | some (a, b) => a :: pieces pat b
termination_by s.length
decreasing_by exact length_lt_of_cut (by assumption) (by assumption)

/-- Replacement that first drops the characters of an occurrence that has begun. -/
def replaceFrom (pat new : List Char) : Nat → List Char → List Char
  | _, [] => []
  | skip + 1, _ :: s => replaceFrom pat new skip s
  | 0, c :: s =>
    match dropPrefix? pat (c :: s) with
    | some _ => new ++ replaceFrom pat new (pat.length - 1) s
    | none => c :: replaceFrom pat new 0 s

/-- Every occurrence of `pat`, from left to right without overlap, replaced by `new`.  An empty
`pat` occurs nowhere. -/
def replace (pat new s : List Char) : List Char :=
  if pat = [] then s else replaceFrom pat new 0 s

/-- The texts one after another with `glue` between neighbours. -/
def joined (glue : List Char) : List (List Char) → List Char
  | [] => []
  | [a] => a
  | a :: b :: rest => a ++ glue ++ joined glue (b :: rest)

/-! ### Trimming -/

/-- The text without its longest end of characters that satisfy `p`. -/
def dropEndWhile (p : Char → Bool) (s : List Char) : List Char :=
  (s.reverse.dropWhile p).reverse

/-- The text without the characters that satisfy `p` at both ends. -/
def strip (p : Char → Bool) (s : List Char) : List Char :=
  dropEndWhile p (s.dropWhile p)

end TagTemplate.Text
