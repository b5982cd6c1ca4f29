import Mathlib.Data.List.TakeWhile
import Mathlib.Tactic.Common
import TagTemplate.Expression

/-! # Tokens without their places

The spans of tokens matter for errors only.  `Piece.tokens? s` lists the tokens of a text without
them, and there is none if some characters of the text begin no token.

* `tokens?_tokenize`: these are the tokens that tag bodies are read as.
* `tokens?_append`: the tokens of a text that blanks or a closing parenthesis follow.
* `tokens?_strip`: blanks around a text have no tokens. -/

namespace TagTemplate

namespace Piece

/-- The tokens of a text, if all its characters belong to tokens or separate them. -/
def tokens? : List Char → Option (List Token)
  | [] => some []
  | c :: rest =>
    match (read c rest).1 with
    | blank => tokens? (rest.drop (read c rest).2)
    | token t => (tokens? (rest.drop (read c rest).2)).map (t :: ·)
    | unknown _ => none
termination_by s => s.length
decreasing_by all_goals simp only [List.length_drop, List.length_cons]; omega

theorem tokens?_cons (c : Char) (rest : List Char) : tokens? (c :: rest) =
    match (read c rest).1 with
    | blank => tokens? (rest.drop (read c rest).2)
    | token t => (tokens? (rest.drop (read c rest).2)).map (t :: ·)
    | unknown _ => none := by
  rw [tokens?]

theorem tokens?_nil : tokens? [] = some [] := by
  rw [tokens?]

def errorAt? : Piece × Span → Option ParseError
  | (unknown s, span) => some (.malformed span (.unrecognized s) [])
  | _ => none

/-- The token of a piece, with its span. -/
def tokenAt? : Piece × Span → Option (Token × Span)
  | (token t, span) => some (t, span)
  | _ => none

theorem tokens?_eq_of_all (start : Nat) (s : List Char) :
    tokens? s = if ((all start s).filterMap errorAt?).isEmpty then
      some (((all start s).filterMap tokenAt?).map (·.1)) else none := by
  fun_induction all start s with
  | case1 start => rw [tokens?_nil]; rfl
  | case2 start c rest piece extra hread stop ih =>
      rw [tokens?_cons, hread]
      cases piece with
      | blank => exact ih
      | token t =>
          have herrors (l : List (Piece × Span)) (span : Span) :
              ((token t, span) :: l).filterMap errorAt? = l.filterMap errorAt? := rfl
          dsimp only
          rw [ih, herrors]
          split <;> rfl
      | unknown s => rfl

/-! ### Words and signs -/

section steps
variable {c : Char} {w l : List Char}

theorem tokens?_blank (h : Token.isBlank c = true) : tokens? (c :: l) = tokens? l := by
  rw [tokens?_cons, read, if_pos h]
  rfl

theorem tokens?_parenOpen : tokens? ('(' :: l) = (tokens? l).map (.parenOpen :: ·) := by
  rw [tokens?_cons]
  rfl

theorem tokens?_parenClose : tokens? (')' :: l) = (tokens? l).map (.parenClose :: ·) := by
  rw [tokens?_cons]
  rfl

theorem tokens?_comma : tokens? (',' :: l) = (tokens? l).map (.comma :: ·) := by
  rw [tokens?_cons]
  rfl

theorem tokens?_equals : tokens? ('=' :: l) = (tokens? l).map (.equals :: ·) := by
  rw [tokens?_cons]
  rfl

/-- A word ends where a character stands that is no part of words. -/
theorem takeWhile_word (hw : ∀ d ∈ w, Token.isWordPart d = true)
    (hl : ∀ d ∈ l.head?, Token.isWordPart d = false) :
    (w ++ l).takeWhile Token.isWordPart = w := by
  rw [List.takeWhile_append_of_pos hw]
  cases l with
  | nil => rw [List.takeWhile_nil, List.append_nil]
  | cons d l => rw [List.takeWhile_cons_of_neg (by simp [hl d rfl]), List.append_nil]

/-- A character that belongs to no words is not a dash, and so begins no arrow. -/
theorem ne_dash (hc : Token.isWordPart c = false) : c ≠ '-' := by
  rintro rfl
  cases hc

theorem read_word (hc : Token.isWordPart c = true) (harrow : ¬ (c = '-' ∧ l.head? = some '>')) :
    read c l = (token (.word (.ofList (c :: l.takeWhile Token.isWordPart))),
      (l.takeWhile Token.isWordPart).length) := by
  rw [Token.isWordPart, Bool.and_eq_true, Bool.not_eq_true', Bool.not_eq_true'] at hc
  obtain ⟨hblank, hsign⟩ := hc
  have hne : ∀ d, Token.isPunctuation d = true → c ≠ d := by
    rintro d hd rfl
    rw [hsign] at hd
    cases hd
  rw [read, if_neg (by simp [hblank]), if_neg harrow, if_neg (hne '=' rfl),
    if_neg (hne '(' rfl), if_neg (hne ')' rfl), if_neg (hne ',' rfl),
    if_neg (not_or.mpr ⟨hne '"' rfl, hne '\'' rfl⟩), if_neg (hne '[' rfl),
    if_neg (by simp [hsign])]

theorem read_sign (hc : Token.isWordPart c = false) (hquote : ¬ (c = '"' ∨ c = '\''))
    (hbracket : c ≠ '[') : read c l = ((read c []).1, 0) := by
  have harrow (l : List Char) : ¬ (c = '-' ∧ l.head? = some '>') := fun h => ne_dash hc h.1
  have hword : ¬ Token.isBlank c = true → Token.isPunctuation c = true := by
    intro hblank
    simpa [Token.isWordPart, hblank] using hc
  rw [read, read, if_neg (harrow l), if_neg (harrow []), if_neg hquote, if_neg hquote,
    if_neg hbracket, if_neg hbracket]
  by_cases hblank : Token.isBlank c = true
  · rw [if_pos hblank, if_pos hblank]
  · rw [if_pos (hword hblank), if_pos (hword hblank)]
    split <;> [rfl; skip]
    split <;> [rfl; skip]
    split <;> [rfl; skip]
    split <;> [rfl; skip]
    split <;> rfl

theorem read_quote (hc : c = '"' ∨ c = '\'') : read c l =
    if (quotedRun c l).2 then
      (token (if c = '"' then .doubleQuoted (.ofList (Text.unquote c (quotedRun c l).1))
        else .singleQuoted (.ofList (Text.unquote c (quotedRun c l).1))),
        (quotedRun c l).1.length + 1)
    else (unknown (.ofList (c :: (quotedRun c l).1)), (quotedRun c l).1.length) := by
  rcases hc with rfl | rfl <;> rfl

theorem read_bracket : read '[' l =
    if (l.takeWhile (· ≠ ']')).length < l.length then
      (token (.bracketed (.ofList (l.takeWhile (· ≠ ']')))), (l.takeWhile (· ≠ ']')).length + 1)
    else (unknown (.ofList ('[' :: l.takeWhile (· ≠ ']'))), (l.takeWhile (· ≠ ']')).length) :=
  rfl

theorem tokens?_word (hc : Token.isWordPart c = true) (hdash : c ≠ '-')
    (hw : ∀ d ∈ w, Token.isWordPart d = true) (hl : ∀ d ∈ l.head?, Token.isWordPart d = false) :
    tokens? (c :: (w ++ l)) = (tokens? l).map (.word (.ofList (c :: w)) :: ·) := by
  rw [tokens?_cons, read_word hc (fun h => hdash h.1), takeWhile_word hw hl, List.drop_left]

end steps

/-! ### Text that separators follow -/

/-- The character ends every token that it does not belong to: a blank, or a parenthesis. -/
def separates (c : Char) : Bool :=
  Token.isBlank c || c = ')'

theorem facts_of_separates {c : Char} (h : separates c = true) :
    Token.isWordPart c = false ∧ c ≠ '>' ∧ c ≠ '"' ∧ c ≠ '\'' ∧ c ≠ ']' ∧ c ≠ '\\' := by
  simp only [separates, Token.isBlank, Bool.or_eq_true, decide_eq_true_eq] at h
  rcases h with (rfl | rfl | rfl | rfl) | rfl <;> decide

/-- The inside of quotes that are closed does not depend on what comes after them. -/
theorem quotedRun_append_of_closed {q : Char} {rest : List Char} (l : List Char)
    (h : (quotedRun q rest).2 = true) : quotedRun q (rest ++ l) = quotedRun q rest ∧
      (quotedRun q rest).1.length < rest.length := by
  fun_induction quotedRun q rest with
  | case1 | case3 | case4 => cases h
  | case2 s =>
      rw [List.cons_append, quotedRun.eq_def]
      exact ⟨if_pos rfl, Nat.succ_pos _⟩
  | case5 d s hline run closed hrun hq ih =>
      rw [hrun] at ih
      obtain ⟨hsame, hlt⟩ := ih h
      rw [List.cons_append, List.cons_append, quotedRun.eq_def]
      dsimp only
      rw [if_neg hq, if_pos rfl, if_neg hline, hsame]
      refine ⟨rfl, ?_⟩
      dsimp only [List.length_cons] at hlt ⊢
      omega
  | case6 d s hq hback run closed hrun ih =>
      rw [hrun] at ih
      obtain ⟨hsame, hlt⟩ := ih h
      rw [List.cons_append, quotedRun.eq_def]
      dsimp only
      rw [if_neg hq, if_neg hback, hsame]
      refine ⟨rfl, ?_⟩
      dsimp only [List.length_cons] at hlt ⊢
      omega

theorem quotedRun_of_not_mem {q : Char} {l : List Char} (h : q ∉ l) :
    (quotedRun q l).2 = false := by
  fun_induction quotedRun q l with
  | case1 | case3 | case4 => rfl
  | case2 s => exact absurd List.mem_cons_self h
  | case5 d s hline run closed hrun hq ih =>
      have hrest := ih fun hmem => h (List.mem_cons_of_mem _ (List.mem_cons_of_mem _ hmem))
      rw [hrun] at hrest
      exact hrest
  | case6 d s hq hback run closed hrun ih =>
      have hrest := ih fun hmem => h (List.mem_cons_of_mem _ hmem)
      rw [hrun] at hrest
      exact hrest

/-- Quotes that are not closed stay so as long as no quote comes after them. -/
theorem quotedRun_append_of_open {q : Char} {rest l : List Char} (hl : q ∉ l)
    (h : (quotedRun q rest).2 = false) : (quotedRun q (rest ++ l)).2 = false := by
  fun_induction quotedRun q rest with
  | case1 => exact quotedRun_of_not_mem hl
  | case2 s => cases h
  | case3 hq =>
      rw [List.cons_append, List.nil_append]
      exact quotedRun_of_not_mem (List.not_mem_cons_of_ne_of_not_mem (Ne.symm hq) hl)
  | case4 s hq =>
      rw [List.cons_append, List.cons_append, quotedRun.eq_def]
      dsimp only
      rw [if_neg hq, if_pos rfl, if_pos rfl]
  | case5 d s hline run closed hrun hq ih =>
      rw [hrun] at ih
      rw [List.cons_append, List.cons_append, quotedRun.eq_def]
      dsimp only
      rw [if_neg hq, if_pos rfl, if_neg hline]
      exact ih h
  | case6 d s hq hback run closed hrun ih =>
      rw [hrun] at ih
      rw [List.cons_append, quotedRun.eq_def]
      dsimp only
      rw [if_neg hq, if_neg hback]
      exact ih h

/-- Both pieces are characters that begin no token. -/
def BothUnknown (p p' : Piece × Nat) : Prop :=
  (∃ u, p.1 = unknown u) ∧ ∃ u, p'.1 = unknown u

section append
variable {b : List Char} (hb : ∀ d ∈ b, separates d = true)
include hb

theorem head?_append_arrow {rest : List Char} (h : rest.head? ≠ some '>') :
    (rest ++ b).head? ≠ some '>' := by
  cases rest with
  | cons d rest => exact h
  | nil =>
      cases b with
      | nil => exact h
      | cons d b =>
          intro heq
          exact (facts_of_separates (hb d List.mem_cons_self)).2.1 (Option.some.inj heq)

theorem takeWhile_word_append (rest : List Char) :
    (rest ++ b).takeWhile Token.isWordPart = rest.takeWhile Token.isWordPart := by
  have hnone : b.takeWhile Token.isWordPart = [] := by
    cases b with
    | nil => rfl
    | cons d b =>
        have := (facts_of_separates (hb d List.mem_cons_self)).1
        exact List.takeWhile_cons_of_neg (by simp [this])
  rw [List.takeWhile_append, hnone, List.append_nil]
  split
  · next h => exact ((List.takeWhile_prefix _).eq_of_length h).symm
  · rfl

theorem takeWhile_bracket_append (rest : List Char) :
    (rest.takeWhile (· ≠ ']')).length < rest.length ∧
      (rest ++ b).takeWhile (· ≠ ']') = rest.takeWhile (· ≠ ']') ∨
    (rest.takeWhile (· ≠ ']')).length = rest.length ∧
      ((rest ++ b).takeWhile (· ≠ ']')).length = (rest ++ b).length := by
  have hall : b.takeWhile (· ≠ ']') = b := by
    rw [List.takeWhile_eq_self_iff]
    exact fun d hd => decide_eq_true (facts_of_separates (hb d hd)).2.2.2.2.1
  have hle : (rest.takeWhile (· ≠ ']')).length ≤ rest.length :=
    (List.takeWhile_sublist _).length_le
  rw [List.takeWhile_append, hall]
  split
  · next h => exact .inr ⟨h, rfl⟩
  · next h => exact .inl ⟨by omega, rfl⟩

theorem read_append (c : Char) (rest : List Char) :
    BothUnknown (read c rest) (read c (rest ++ b)) ∨
      read c (rest ++ b) = read c rest ∧ (read c rest).2 ≤ rest.length := by
  by_cases hquote : c = '"' ∨ c = '\''
  · have hnot : c ∉ b := by
      intro hmem
      obtain ⟨_, _, h₁, h₂, _⟩ := facts_of_separates (hb c hmem)
      rcases hquote with rfl | rfl
      · exact h₁ rfl
      · exact h₂ rfl
    rw [read_quote hquote, read_quote hquote]
    cases hclosed : (quotedRun c rest).2 with
    | true =>
        obtain ⟨hsame, hlt⟩ := quotedRun_append_of_closed b hclosed
        rw [hsame, hclosed]
        exact .inr ⟨rfl, hlt⟩
    | false =>
        rw [quotedRun_append_of_open hnot hclosed]
        exact .inl ⟨⟨_, rfl⟩, _, rfl⟩
  by_cases hbracket : c = '['
  · subst hbracket
    rw [read_bracket, read_bracket]
    rcases takeWhile_bracket_append hb rest with ⟨hlt, hsame⟩ | ⟨hall, hall'⟩
    · rw [hsame, if_pos hlt, if_pos (by rw [List.length_append]; omega)]
      exact .inr ⟨rfl, hlt⟩
    · rw [if_neg (by omega), if_neg (by omega)]
      exact .inl ⟨⟨_, rfl⟩, _, rfl⟩
  refine .inr ?_
  cases hword : Token.isWordPart c with
  | false =>
      have hrest := read_sign (l := rest) hword hquote hbracket
      rw [hrest]
      exact ⟨read_sign hword hquote hbracket, Nat.zero_le _⟩
  | true =>
      by_cases harrow : c = '-' ∧ rest.head? = some '>'
      · obtain ⟨rfl, hhead⟩ := harrow
        obtain ⟨rest, rfl⟩ : ∃ l, rest = '>' :: l := by
          cases rest with
          | nil => cases hhead
          | cons d rest => exact ⟨rest, by rw [Option.some.inj hhead]⟩
        exact ⟨rfl, Nat.succ_pos _⟩
      · have harrow' : ¬ (c = '-' ∧ (rest ++ b).head? = some '>') :=
          fun h => head?_append_arrow hb (fun hhead => harrow ⟨h.1, hhead⟩) h.2
        rw [read_word hword harrow, read_word hword harrow', takeWhile_word_append hb]
        exact ⟨rfl, (List.takeWhile_sublist _).length_le⟩

theorem tokens?_append (s : List Char) :
    tokens? (s ++ b) = (tokens? s).bind fun ts => (tokens? b).map (ts ++ ·) := by
  fun_induction tokens? s with
  | case1 => simp
  | case2 c rest hread ih =>
      rcases read_append hb c rest with ⟨⟨u, hu⟩, _⟩ | ⟨hsame, hle⟩
      · rw [hread] at hu
        cases hu
      · rw [List.cons_append, tokens?_cons, hsame, hread, List.drop_append_of_le_length hle]
        exact ih
  | case3 c rest t hread ih =>
      rcases read_append hb c rest with ⟨⟨u, hu⟩, _⟩ | ⟨hsame, hle⟩
      · rw [hread] at hu
        cases hu
      · rw [List.cons_append, tokens?_cons, hsame, hread, List.drop_append_of_le_length hle]
        dsimp only
        rw [ih]
        cases tokens? (rest.drop (read c rest).2) with
        | none => rfl
        | some ts => cases tokens? b <;> rfl
  | case4 c rest u hread =>
      rw [List.cons_append, tokens?_cons]
      rcases read_append hb c rest with ⟨_, u', hu'⟩ | ⟨hsame, _⟩
      · rw [hu']
        rfl
      · rw [hsame, hread]
        rfl

end append

theorem tokens?_blanks {b : List Char} (h : ∀ c ∈ b, Token.isBlank c = true) (l : List Char) :
    tokens? (b ++ l) = tokens? l := by
  induction b with
  | nil => rfl
  | cons c b ih =>
      rw [List.cons_append, tokens?_blank (h c List.mem_cons_self)]
      exact ih fun d hd => h d (List.mem_cons_of_mem c hd)

theorem tokens?_of_all_blank {b : List Char} (h : ∀ c ∈ b, Token.isBlank c = true) :
    tokens? b = some [] := by
  rw [← List.append_nil b, tokens?_blanks h, tokens?_nil]

theorem tokens?_dropWhile_blank (s : List Char) :
    tokens? (s.dropWhile Token.isBlank) = tokens? s := by
  induction s with
  | nil => rfl
  | cons c s ih =>
      cases h : Token.isBlank c with
      | false => rw [List.dropWhile_cons_of_neg (by simp [h])]
      | true => rw [List.dropWhile_cons_of_pos h, tokens?_blank h, ih]

theorem tokens?_dropEndWhile_blank (s : List Char) :
    tokens? (Text.dropEndWhile Token.isBlank s) = tokens? s := by
  have hblanks : ∀ c ∈ (s.reverse.takeWhile Token.isBlank).reverse, Token.isBlank c = true := by
    intro c hc
    exact List.mem_takeWhile_imp (List.mem_reverse.mp hc)
  have hsplit : Text.dropEndWhile Token.isBlank s ++
      (s.reverse.takeWhile Token.isBlank).reverse = s := by
    rw [Text.dropEndWhile, ← List.reverse_append, List.takeWhile_append_dropWhile,
      List.reverse_reverse]
  have hseparates : ∀ c ∈ (s.reverse.takeWhile Token.isBlank).reverse, separates c = true :=
    fun c hc => Bool.or_eq_true_iff.mpr (.inl (hblanks c hc))
  have happend := tokens?_append hseparates (Text.dropEndWhile Token.isBlank s)
  rw [hsplit, tokens?_of_all_blank hblanks] at happend
  rw [happend]
  cases tokens? (Text.dropEndWhile Token.isBlank s) with
  | none => rfl
  | some ts => simp

theorem tokens?_strip (s : List Char) : tokens? (Text.strip Token.isBlank s) = tokens? s := by
  rw [Text.strip, tokens?_dropEndWhile_blank, tokens?_dropWhile_blank]

end Piece

open Piece

theorem tokens?_tokenize (body : String) :
    (tokenize body).toOption.map (·.map (·.1)) = tokens? body.toList := by
  have htokenize : tokenize body =
      if ((all 0 body.toList).filterMap errorAt?).isEmpty then
        .ok ((all 0 body.toList).filterMap tokenAt?)
      else .error ((all 0 body.toList).filterMap errorAt?) := rfl
  rw [htokenize, tokens?_eq_of_all 0]
  split <;> rfl

/-- A body whose text has tokens is read, and the tokens are those of its text. -/
theorem exists_tokenize {body : String} {ts : List Token} (h : tokens? body.toList = some ts) :
    ∃ tokens, tokenize body = .ok tokens ∧ tokens.map (·.1) = ts := by
  rw [← tokens?_tokenize] at h
  obtain ⟨tokens, hread, rfl⟩ := Option.map_eq_some_iff.mp h
  cases htokens : tokenize body with
  | error e =>
      rw [htokens] at hread
      cases hread
  | ok found =>
      rw [htokens] at hread
      cases hread
      exact ⟨tokens, rfl, rfl⟩

end TagTemplate
