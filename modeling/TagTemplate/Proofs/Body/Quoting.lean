import TagTemplate.Proofs.Body.Tokens
import TagTemplate.Proofs.Text.Splitting

/-! # Text in quotes

Between the quotes of a token stand characters that are neither the quote nor a backslash, and
backslashes that each take a character along.  Such a text has an odd number of backslashes before
each quote in it, so the two replacements that read it do what one pass does.

* `Text.unquote_of_inside`: the inside of quotes is read as in one pass from left to right.
* `Piece.read_unescaped`: the quoted tokens, and what runs of backslashes in them come to.
* `Text.unquote_escape`: any text can be written in quotes.
* `Piece.tokens?_quoted`: a text in quotes is one token, whatever follows it. -/

namespace TagTemplate

namespace Text

variable {q c : Char} {a b s : List Char}

/-- What the pattern of a token admits between two quotes `q`: characters other than the quote and
the backslash, and pairs of a backslash and a character that ends no line. -/
inductive Inside (q : Char) : List Char → Prop
  | nil : Inside q []
  | plain {c : Char} {s : List Char} : c ≠ q → c ≠ '\\' → Inside q s → Inside q (c :: s)
  | escaped {c : Char} {s : List Char} : c ≠ '\n' → Inside q s → Inside q ('\\' :: c :: s)

namespace Inside

theorem head?_ne (hq : q ≠ '\\') (h : Inside q s) : s.head? ≠ some q := by
  cases h with
  | nil => exact nofun
  | plain hc _ _ => exact fun heq => hc (Option.some.inj heq)
  | escaped _ _ => exact fun heq => hq (Option.some.inj heq).symm

theorem append (ha : Inside q a) (hb : Inside q b) : Inside q (a ++ b) := by
  induction ha with
  | nil => exact hb
  | plain hc hback _ ih => exact .plain hc hback ih
  | escaped hc _ ih => exact .escaped hc ih

theorem backslashes (q : Char) (k : Nat) : Inside q (List.replicate (2 * k) '\\') := by
  induction k with
  | zero => exact .nil
  | succ k ih => exact .escaped (by decide) ih

end Inside

/-! ### One pass -/

theorem unescape_cons (hc : c ≠ '\\') : unescape q (c :: s) = c :: unescape q s := by
  rw [unescape]
  intro _ _ heq
  exact absurd heq hc

theorem unescape_pair (hc : c = '\\' ∨ c = q) :
    unescape q ('\\' :: c :: s) = c :: unescape q s := by
  rw [unescape, if_pos hc]

/-- A backslash before any other character is kept, with the character. -/
theorem unescape_kept (hback : c ≠ '\\') (hc : c ≠ q) :
    unescape q ('\\' :: c :: s) = '\\' :: c :: unescape q s := by
  rw [unescape, if_neg (not_or.mpr ⟨hback, hc⟩), unescape_cons hback]

theorem unescape_append (ha : Inside q a) (b : List Char) :
    unescape q (a ++ b) = unescape q a ++ unescape q b := by
  induction ha with
  | nil => rfl
  | plain _ hback _ ih =>
      rw [List.cons_append, unescape_cons hback, unescape_cons hback, ih, List.cons_append]
  | @escaped c s _ _ ih =>
      rw [List.cons_append, List.cons_append]
      by_cases hc : c = '\\' ∨ c = q
      · rw [unescape_pair hc, unescape_pair hc, ih, List.cons_append]
      · obtain ⟨hback, hcq⟩ := not_or.mp hc
        rw [unescape_kept hback hcq, unescape_kept hback hcq, ih, List.cons_append,
          List.cons_append]

theorem unescape_backslashes (q : Char) (k : Nat) :
    unescape q (List.replicate (2 * k) '\\') = List.replicate k '\\' := by
  induction k with
  | zero => rfl
  | succ k ih =>
      have hpair : List.replicate (2 * (k + 1)) '\\' =
          '\\' :: '\\' :: List.replicate (2 * k) '\\' := rfl
      rw [hpair, unescape_pair (.inl rfl), ih, List.replicate_succ]

/-! ### Two replacements -/

theorem replaceFrom_cons {p : Char} {pat new : List Char} (h : p ≠ c) :
    replaceFrom (p :: pat) new 0 (c :: s) = c :: replaceFrom (p :: pat) new 0 s := by
  have hnone : dropPrefix? (p :: pat) (c :: s) = none := if_neg h
  rw [replaceFrom, hnone]

/-- A character stays where the second character of the pattern does not follow. -/
theorem replaceFrom_cons_of_head {p r : Char} {pat new : List Char} (h : s.head? ≠ some r) :
    replaceFrom (p :: r :: pat) new 0 (c :: s) = c :: replaceFrom (p :: r :: pat) new 0 s := by
  have hnone : dropPrefix? (p :: r :: pat) (c :: s) = none := by
    cases s with
    | nil => simp [dropPrefix?]
    | cons d s =>
        have hne : r ≠ d := fun heq => h (congrArg some heq.symm)
        simp [dropPrefix?, hne]
  rw [replaceFrom, hnone]

theorem replaceFrom_pair {p r d : Char} :
    replaceFrom [p, r] [d] 0 (p :: r :: s) = d :: replaceFrom [p, r] [d] 0 s :=
  replaceFrom_append (List.cons_ne_nil p [r])

/-- The inside of quotes is read as in one pass from left to right. -/
theorem unquote_of_inside (hq : q ≠ '\\') (h : Inside q s) : unquote q s = unescape q s := by
  rw [unquote, replace, replace, if_neg (List.cons_ne_nil _ _), if_neg (List.cons_ne_nil _ _)]
  induction h with
  | nil => rfl
  | plain _ hback _ ih =>
      rw [replaceFrom_cons hback.symm, replaceFrom_cons hback.symm, ih, unescape_cons hback]
  | @escaped c s _ hs ih =>
      by_cases hcq : c = q
      · subst hcq
        rw [replaceFrom_pair, replaceFrom_cons hq.symm, ih, unescape_pair (.inr rfl)]
      · have hhead : (c :: s).head? ≠ some q := fun heq => hcq (Option.some.inj heq)
        rw [replaceFrom_cons_of_head hhead]
        by_cases hback : c = '\\'
        · -- the second backslash of a pair is no part of an escaped quote
          subst hback
          rw [replaceFrom_cons_of_head (hs.head?_ne hq), replaceFrom_pair, ih,
            unescape_pair (.inl rfl)]
        · have hkept {l : List Char} : (c :: l).head? ≠ some '\\' :=
            fun heq => hback (Option.some.inj heq)
          rw [replaceFrom_cons (Ne.symm hback), replaceFrom_cons_of_head hkept,
            replaceFrom_cons (Ne.symm hback), ih, unescape_kept hback hcq]

/-! ### Writing in quotes -/

theorem inside_escape (hline : q ≠ '\n') (s : List Char) : Inside q (escape q s) := by
  induction s with
  | nil => exact .nil
  | cons c s ih =>
      rw [escape]
      split
      · next hc =>
        refine .escaped ?_ ih
        rcases hc with rfl | rfl
        · decide
        · exact hline
      · next hc =>
        obtain ⟨hback, hcq⟩ := not_or.mp hc
        exact .plain hcq hback ih

theorem unquote_escape (hq : q ≠ '\\') (hline : q ≠ '\n') (s : List Char) :
    unquote q (escape q s) = s := by
  rw [unquote_of_inside hq (inside_escape hline s), unescape_escape]

end Text

namespace Piece

variable {q : Char} {run rest s l : List Char}

/-! ### Tokens in quotes -/

theorem quotedRun_of_inside (hq : q ≠ '\\') (h : Text.Inside q run) :
    quotedRun q (run ++ q :: rest) = (run, true) := by
  induction h with
  | nil =>
      rw [List.nil_append, quotedRun.eq_def]
      dsimp only
      rw [if_pos rfl]
  | plain hc hback _ ih =>
      rw [List.cons_append, quotedRun.eq_def]
      dsimp only
      rw [if_neg hc, if_neg hback, ih]
  | escaped hline _ ih =>
      rw [List.cons_append, List.cons_append, quotedRun.eq_def]
      dsimp only
      rw [if_neg (Ne.symm hq), if_pos rfl, if_neg hline, ih]

/-- What has been gone over up to a closing quote is the inside of quotes. -/
theorem inside_of_quotedRun (h : (quotedRun q s).2 = true) :
    Text.Inside q (quotedRun q s).1 ∧ ∃ rest, s = (quotedRun q s).1 ++ q :: rest := by
  fun_induction quotedRun q s with
  | case1 | case3 | case4 => cases h
  | case2 s => exact ⟨.nil, s, rfl⟩
  | case5 c s hline run closed heq _ ih =>
      rw [heq] at ih
      obtain ⟨hinside, rest, rfl⟩ := ih h
      exact ⟨.escaped hline hinside, rest, rfl⟩
  | case6 c s hc hback run closed heq ih =>
      rw [heq] at ih
      obtain ⟨hinside, rest, rfl⟩ := ih h
      exact ⟨.plain hc hback hinside, rest, rfl⟩

def quotedToken (q : Char) (s : List Char) : Token :=
  if q = '"' then .doubleQuoted (.ofList s) else .singleQuoted (.ofList s)

theorem ne_of_quote (hq : q = '"' ∨ q = '\'') : q ≠ '\\' ∧ q ≠ '\n' := by
  rcases hq with rfl | rfl <;> decide

theorem read_of_inside (hq : q = '"' ∨ q = '\'') (h : Text.Inside q run) :
    read q (run ++ q :: rest) = (token (quotedToken q (Text.unescape q run)), run.length + 1) := by
  rw [read_quote hq, quotedRun_of_inside (ne_of_quote hq).1 h, if_pos rfl,
    Text.unquote_of_inside (ne_of_quote hq).1 h, quotedToken]

/-- A piece that a quote begins is a token exactly if the quote is closed behind a text with its
quotes escaped.  It stands for that text as one pass from left to right reads it, and so do the two
replacements.  A quote behind an even number of backslashes closes, and one behind an odd number
belongs to the text, with half as many backslashes before it. -/
theorem read_unescaped (hq : q = '"' ∨ q = '\'') :
    (∀ text t n, read q text = (token t, n) ↔
      ∃ inner rest, text = inner ++ q :: rest ∧ Text.Inside q inner ∧
        t = quotedToken q (Text.unescape q inner) ∧ n = inner.length + 1) ∧
    (∀ inner, Text.Inside q inner → Text.unquote q inner = Text.unescape q inner) ∧
    ∀ a b k, Text.Inside q a →
      read q (a ++ (List.replicate (2 * k) '\\' ++ q :: b)) =
        (token (quotedToken q (Text.unescape q a ++ List.replicate k '\\')),
          a.length + 2 * k + 1) ∧
      (Text.Inside q b → Text.unquote q (a ++ (List.replicate (2 * k + 1) '\\' ++ q :: b)) =
        Text.unescape q a ++ (List.replicate k '\\' ++ q :: Text.unescape q b)) := by
  obtain ⟨hback, hline⟩ := ne_of_quote hq
  refine ⟨fun text t n => ⟨fun h => ?_, ?_⟩, fun inner => Text.unquote_of_inside hback,
    fun a b k ha => ⟨?_, fun hb => ?_⟩⟩
  · rw [read_quote hq] at h
    split at h
    · next hclosed =>
      obtain ⟨hinside, rest, htext⟩ := inside_of_quotedRun hclosed
      cases h
      have htoken := congrArg (quotedToken q) (Text.unquote_of_inside hback hinside)
      exact ⟨_, rest, htext, hinside, htoken, rfl⟩
    · cases h
  · rintro ⟨inner, rest, rfl, hinside, rfl, rfl⟩
    exact read_of_inside hq hinside
  · have hrun := ha.append (Text.Inside.backslashes q k)
    rw [← List.append_assoc, read_of_inside hq hrun, Text.unescape_append ha,
      Text.unescape_backslashes, List.length_append, List.length_replicate]
  · have hpairs := Text.Inside.backslashes q k
    have hquote : Text.Inside q ('\\' :: q :: b) := .escaped hline hb
    have hrun : List.replicate (2 * k + 1) '\\' ++ q :: b =
        List.replicate (2 * k) '\\' ++ '\\' :: q :: b := by
      rw [List.replicate_succ', List.append_assoc, List.singleton_append]
    rw [hrun, Text.unquote_of_inside hback (ha.append (hpairs.append hquote)),
      Text.unescape_append ha, Text.unescape_append hpairs, Text.unescape_backslashes,
      Text.unescape_pair (.inr rfl)]

/-- Four backslashes before a quote stand for two, and the quote closes.  Five stand for two and the
quote. -/
theorem read_unescaped_backslashes :
    read '"' ['x', '\\', '\\', '\\', '\\', '"', 'y'] = (token (.doubleQuoted "x\\\\"), 6) ∧
    Text.Inside '"' ['x'] ∧ Text.Inside '"' ['y'] ∧
    Text.unquote '"' ['x', '\\', '\\', '\\', '\\', '\\', '"', 'y'] =
      ['x', '\\', '\\', '"', 'y'] := by
  have hx : Text.Inside '"' ['x'] := .plain (by decide) (by decide) .nil
  have hy : Text.Inside '"' ['y'] := .plain (by decide) (by decide) .nil
  obtain ⟨-, -, hruns⟩ := read_unescaped (q := '"') (.inl rfl)
  obtain ⟨hclosing, hinner⟩ := hruns ['x'] ['y'] 2 hx
  exact ⟨hclosing, hx, hy, hinner hy⟩

theorem tokens?_quoted (hq : q = '"' ∨ q = '\'') :
    tokens? (Text.quoted q s ++ l) = (tokens? l).map (quotedToken q s :: ·) := by
  have hquoted : Text.quoted q s ++ l = q :: (Text.escape q s ++ q :: l) := by
    rw [Text.quoted, List.append_assoc]
    rfl
  have hdrop : (Text.escape q s ++ q :: l).drop ((Text.escape q s).length + 1) = l := by
    rw [← List.drop_drop, List.drop_left, List.drop_one, List.tail_cons]
  rw [hquoted, tokens?_cons, read_of_inside hq (Text.inside_escape (ne_of_quote hq).2 s),
    Text.unescape_escape, hdrop]

end Piece

end TagTemplate
