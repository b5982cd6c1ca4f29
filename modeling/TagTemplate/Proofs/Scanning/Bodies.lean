import TagTemplate.Proofs.Text.Trimming
import TagTemplate.Tag.Body

/-! # What is taken off the text of a tag

On the way from the text of a tag to its body the delimiters go first, then the lead, then white
space, and at last one pair of parentheses.

* `withoutDelimiters_between`, `withoutDelimiters_of_ne`: the delimiters.
* `withoutParentheses_inside`, `withoutParentheses_cases`: the parentheses.
* `TagDefinition.body_of_lead`: the body of a tag whose lead is found. -/

namespace TagTemplate

theorem dropSuffix?_append (s z : List Char) : Text.dropSuffix? z (s ++ z) = some s := by
  rw [Text.dropSuffix?, List.reverse_append, Text.dropPrefix?_append, Option.map_some,
    List.reverse_reverse]

/-! ### Delimiters -/

theorem withoutDelimiters_between (d : Delimiters) (s : List Char) :
    withoutDelimiters d (d.opening.toList ++ s ++ d.closing.toList) = s := by
  rw [withoutDelimiters, List.append_assoc, Text.dropPrefix?_append, Option.bind_some,
    dropSuffix?_append, Option.getD_some]

theorem withoutDelimiters_of_ne {d : Delimiters} {s : List Char}
    (h : ∀ inside, s ≠ d.opening.toList ++ inside ++ d.closing.toList) :
    withoutDelimiters d s = s := by
  rw [withoutDelimiters]
  cases hs : (Text.dropPrefix? d.opening.toList s).bind (Text.dropSuffix? d.closing.toList) with
  | none => rfl
  | some inside =>
      obtain ⟨rest, hrest, hinside⟩ := Option.bind_eq_some_iff.mp hs
      refine absurd ?_ (h inside)
      rw [Text.eq_append_of_dropPrefix? hrest, Text.eq_append_of_dropSuffix? hinside,
        List.append_assoc]

/-! ### Parentheses -/

theorem withoutParentheses_inside (inside : List Char) :
    withoutParentheses ('(' :: (inside ++ [')'])) = Text.trim inside := by
  have hopen : Text.dropPrefix? ['('] ('(' :: (inside ++ [')'])) = some (inside ++ [')']) := rfl
  rw [withoutParentheses, hopen, Option.bind_some, dropSuffix?_append]

/-- Parentheses are taken away with the white space in them, or there are none. -/
theorem withoutParentheses_cases (s : List Char) : withoutParentheses s = s ∨
    ∃ inside, s = '(' :: (inside ++ [')']) ∧ withoutParentheses s = Text.trim inside := by
  rw [withoutParentheses]
  cases hs : (Text.dropPrefix? ['('] s).bind (Text.dropSuffix? [')']) with
  | none => exact .inl rfl
  | some inside =>
      obtain ⟨rest, hrest, hinside⟩ := Option.bind_eq_some_iff.mp hs
      refine .inr ⟨inside, ?_, rfl⟩
      rw [Text.eq_append_of_dropPrefix? hrest, Text.eq_append_of_dropSuffix? hinside]
      rfl

theorem withoutParentheses_of_head {s : List Char} (h : ∀ c ∈ s.head?, c ≠ '(') :
    withoutParentheses s = s := by
  rcases withoutParentheses_cases s with hs | ⟨inside, rfl, -⟩
  · exact hs
  · exact absurd rfl (h '(' rfl)

theorem trim_parentheses (s : List Char) :
    Text.trim ('(' :: (s ++ [')'])) = '(' :: (s ++ [')']) := by
  refine strip_of_ends (fun c hc => ?_) fun c hc => ?_
  · cases hc
    decide
  · rw [← List.cons_append, List.getLast?_concat] at hc
    cases hc
    decide

/-! ### Bodies -/

namespace TagDefinition

variable {t : TagDefinition} {d : Delimiters} {s rest : List Char}

theorem body_of_lead (h : withoutDelimiters d s = t.lead.toList ++ rest) :
    t.body d s = withoutParentheses (Text.trim rest) := by
  rw [body, h, Text.dropPrefix?_append, Option.getD_some]

theorem body_of_no_lead (h : ¬ t.lead.toList <+: withoutDelimiters d s) :
    t.body d s = withoutParentheses (Text.trim (withoutDelimiters d s)) := by
  rw [body]
  cases hs : Text.dropPrefix? t.lead.toList (withoutDelimiters d s) with
  | none => rfl
  | some rest => exact absurd ⟨rest, (Text.eq_append_of_dropPrefix? hs).symm⟩ h

theorem body_of_parentheses (h : withoutDelimiters d s = t.lead.toList ++ '(' :: (rest ++ [')'])) :
    t.body d s = Text.trim rest := by
  rw [body_of_lead h, trim_parentheses, withoutParentheses_inside]

end TagDefinition

end TagTemplate
