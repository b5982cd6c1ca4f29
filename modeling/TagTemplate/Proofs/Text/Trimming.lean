import Mathlib.Data.List.TakeWhile
import TagTemplate.Text.Basic
import TagTemplate.Text.WhiteSpace

/-! # Stripping

A text is stripped of the characters at both ends that satisfy a condition.

* `strip_of_ends`, `Text.strip_strip`: where nothing is stripped off.
* `Text.strip_around`, `Text.exists_strip`: what is stripped off, in both directions.
* `Text.count_strip`: no other character is lost. -/

namespace TagTemplate

theorem dropWhile_of_head {p : Char → Bool} {s : List Char} (h : ∀ c ∈ s.head?, p c = false) :
    s.dropWhile p = s := by
  cases s with
  | nil => rfl
  | cons c s => exact List.dropWhile_cons_of_neg (by simp [h c rfl])

theorem strip_of_ends {p : Char → Bool} {s : List Char} (h : ∀ c ∈ s.head?, p c = false)
    (h' : ∀ c ∈ s.getLast?, p c = false) : Text.strip p s = s := by
  rw [Text.strip, dropWhile_of_head h, Text.dropEndWhile, dropWhile_of_head, List.reverse_reverse]
  rwa [List.head?_reverse]

namespace Text

variable {p : Char → Bool}

theorem strip_strip (p : Char → Bool) (s : List Char) : strip p (strip p s) = strip p s := by
  have hend {l : List Char} {c : Char} (hc : c ∈ (l.dropWhile p).head?) : p c = false := by
    have hnot := List.head?_dropWhile_not p l
    rw [hc] at hnot
    exact hnot
  refine strip_of_ends (fun c hc => ?_) fun c hc => ?_
  · have hprefix : strip p s <+: s.dropWhile p := by
      rw [← List.reverse_suffix, strip, dropEndWhile, List.reverse_reverse]
      exact List.dropWhile_suffix p
    obtain ⟨rest, hrest⟩ := hprefix
    refine hend (l := s) ?_
    rw [← hrest, List.head?_append, Option.mem_def.mp hc, Option.some_or]
    rfl
  · rw [strip, dropEndWhile, List.getLast?_reverse] at hc
    exact hend hc

theorem strip_of_all {s : List Char} (hs : ∀ c ∈ s, p c = true) : strip p s = [] := by
  rw [strip, List.dropWhile_eq_nil_iff.mpr hs]
  rfl

theorem strip_around {a s b : List Char} (ha : ∀ c ∈ a, p c = true)
    (hs : ∀ c ∈ s.head?, p c = false) (hs' : ∀ c ∈ s.getLast?, p c = false)
    (hb : ∀ c ∈ b, p c = true) : strip p (a ++ s ++ b) = s := by
  cases s with
  | nil =>
      rw [List.append_nil]
      exact strip_of_all fun c hc => (List.mem_append.mp hc).elim (ha c) (hb c)
  | cons c s =>
      have hfront : (c :: s ++ b).dropWhile p = c :: s ++ b :=
        dropWhile_of_head (p := p) hs
      rw [List.append_assoc, strip, List.dropWhile_append_of_pos ha, hfront, dropEndWhile,
        List.reverse_append, List.dropWhile_append_of_pos fun d hd => hb d (List.mem_reverse.mp hd),
        dropWhile_of_head (by rwa [List.head?_reverse]), List.reverse_reverse]

/-- Every text is its stripped text with characters around it that are stripped off. -/
theorem exists_strip (p : Char → Bool) (s : List Char) : ∃ a b, s = a ++ strip p s ++ b ∧
    (∀ c ∈ a, p c = true) ∧ ∀ c ∈ b, p c = true := by
  have hfront := List.takeWhile_append_dropWhile (p := p) (l := s)
  have hback := List.takeWhile_append_dropWhile (p := p) (l := (s.dropWhile p).reverse)
  rw [← List.reverse_inj, List.reverse_append, List.reverse_reverse] at hback
  refine ⟨s.takeWhile p, ((s.dropWhile p).reverse.takeWhile p).reverse, ?_,
    fun c hc => List.mem_takeWhile_imp hc,
    fun c hc => List.mem_takeWhile_imp (List.mem_reverse.mp hc)⟩
  rw [List.append_assoc, strip, dropEndWhile, hback, hfront]

theorem count_strip {c : Char} (hc : p c = false) (s : List Char) :
    (strip p s).count c = s.count c := by
  obtain ⟨a, b, hs, ha, hb⟩ := exists_strip p s
  have hzero {l : List Char} (hl : ∀ d ∈ l, p d = true) : l.count c = 0 := by
    refine List.count_eq_zero.mpr fun hmem => ?_
    rw [hl c hmem] at hc
    cases hc
  have hcount := congrArg (List.count c) hs
  rw [List.count_append, List.count_append, hzero ha, hzero hb] at hcount
  omega

end Text

end TagTemplate
