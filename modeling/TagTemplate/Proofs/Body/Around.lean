import TagTemplate.Proofs.Scanning.Adjacent

/-! # Bodies with a text in quotes

The body of a tag can hold a text in quotes, with a word or a sign before it and perhaps something
after it.

* `repeats_around`: the pattern of the tag goes through such a body.
* `tokens?_pair`, `tokens?_word_pair` and `tokens?_call`: one of the tokens of the body holds the
  text.
* `Attributes.ofBody_pair` and `Attributes.ofBody_name_pair`: the text is the value of a key. -/

namespace TagTemplate

open Pattern BuiltinTag Piece

/-- A text in quotes with something before and after it. -/
def around (front : List Char) (q : Char) (s back : List Char) : List Char :=
  front ++ (Text.quoted q s ++ back)

section around
variable {q : Char} {s front back : List Char} (hq : q = '"' ∨ q = '\'')
include hq

theorem isTidy_around (hfront : front.head?.any Char.isAlpha = true)
    (hback : back.getLast?.all fun c => !Text.isWhiteSpace c) :
    isTidy (around front q s back) = true := by
  have hhead : (around front q s back).head?.any Char.isAlpha = true := by
    cases front with
    | nil => cases hfront
    | cons c front => exact hfront
  have hquote : Text.isWhiteSpace q = false := by
    rcases hq with rfl | rfl <;> decide
  have hlast : (around front q s back).getLast?.any (fun c => !Text.isWhiteSpace c) = true := by
    rw [around, List.getLast?_append, List.getLast?_append, Text.quoted, List.getLast?_append,
      List.getLast?_singleton, Option.some_or]
    cases hlast : back.getLast? with
    | none =>
        simp [hquote]
    | some c =>
        rw [hlast] at hback
        simpa using hback
  rw [isTidy, hhead, hlast]
  rfl

theorem repeats_around (hs : '\n' ∉ s) {cs : CharClass} {z : Char} (hz : q ≠ z)
    (hfront : Repeats (item cs) z front) (hback : Repeats (item cs) z back) :
    Repeats (item cs) z (around front q s back) :=
  hfront.append ((repeats_quoted hq hs hz).append hback)

end around

/-! ### Attributes of such bodies -/

namespace Attributes

theorem ofBody_of_tokens {spec : AttributeSpec} {b m : List Char} {ts : List Token}
    {items : List AttrItem} (hform : spec.form ≠ .expression) (hb : Text.trim b = m)
    (hts : tokens? m = some ts)
    (hitems : ∀ final tokens, tokens.map (·.1) = ts →
      AttrItem.readAll final [.endOfInput] tokens = .ok items) :
    ofBody spec (.ofList b) = .ok (ofItems spec items) := by
  have htrimmed : Text.trimmed (.ofList b) = .ofList m := by
    rw [Text.trimmed, String.toList_ofList, hb]
  have hbody : tokens? (String.ofList m).toList = some ts := by
    rw [String.toList_ofList, hts]
  obtain ⟨tokens, htokens, hmap⟩ := exists_tokenize hbody
  rw [ofBody, htrimmed, if_neg hform, readItems, htokens]
  dsimp only
  rw [hitems _ tokens hmap]
  rfl

end Attributes

section tokens
variable {q : Char} {s : List Char} (hq : q = '"' ∨ q = '\'')

theorem tokens?_letter {c : Char} {l : List Char} (hc : Token.isWordPart c = true) (hdash : c ≠ '-')
    (hl : ∀ d ∈ l.head?, Token.isWordPart d = false) :
    tokens? (c :: l) = (tokens? l).map (.word (.ofList [c]) :: ·) :=
  tokens?_word (w := []) hc hdash (List.forall_mem_nil _) hl

include hq

theorem tokens?_pair {c : Char} (hc : Token.isWordPart c = true) (hdash : c ≠ '-') :
    tokens? (around [c, '='] q s []) = some [.word (.ofList [c]), .equals, quotedToken q s] := by
  have hequals : ∀ d ∈ ('=' :: (Text.quoted q s ++ [])).head?, Token.isWordPart d = false := by
    rintro d ⟨⟩
    rfl
  show tokens? (c :: '=' :: (Text.quoted q s ++ [])) = _
  rw [tokens?_letter hc hdash hequals, tokens?_equals, tokens?_quoted hq, tokens?_nil]
  rfl

theorem tokens?_word_pair {c d : Char} (hc : Token.isWordPart c = true) (hdash : c ≠ '-')
    (hd : Token.isWordPart d = true) (hdash' : d ≠ '-') :
    tokens? (around [c, ' ', d, '='] q s []) =
      some [.word (.ofList [c]), .word (.ofList [d]), .equals, quotedToken q s] := by
  have hblank : ∀ x ∈ (' ' :: around [d, '='] q s []).head?, Token.isWordPart x = false := by
    rintro x ⟨⟩
    rfl
  show tokens? (c :: ' ' :: around [d, '='] q s []) = _
  rw [tokens?_letter hc hdash hblank, tokens?_blank rfl, tokens?_pair hq hd hdash']
  rfl

theorem tokens?_call {f : Char} {w : List Char} (hf : Token.isWordPart f = true) (hdash : f ≠ '-')
    (hw : ∀ d ∈ w, Token.isWordPart d = true) :
    tokens? (around (f :: (w ++ ['('])) q s [')']) =
      some [.word (.ofList (f :: w)), .parenOpen, quotedToken q s, .parenClose] := by
  have hopen : ∀ x ∈ ('(' :: (Text.quoted q s ++ [')'])).head?, Token.isWordPart x = false := by
    rintro x ⟨⟩
    rfl
  have htext : around (f :: (w ++ ['('])) q s [')'] =
      f :: (w ++ '(' :: (Text.quoted q s ++ [')'])) := by
    simp [around]
  rw [htext, tokens?_word hf hdash hw hopen, tokens?_parenOpen, tokens?_quoted hq,
    tokens?_parenClose, tokens?_nil]
  rfl

end tokens

theorem argument_quotedToken (q : Char) (s : List Char) :
    Argument.ofToken? (quotedToken q s) = some (.literal (.text (.ofList s))) := by
  rw [quotedToken]
  split <;> rfl

namespace Attributes

variable {q : Char} {s : List Char} {spec : AttributeSpec}

theorem ofToken?_quotedToken (q : Char) (s : List Char) :
    AttrValue.ofToken? (quotedToken q s) = some (.quoted (.ofList s)) := by
  rw [quotedToken]
  split <;> rfl

theorem readAll_pair (final : Span) (expected : List Expectation) {key : String} {t : Token}
    {v : AttrValue} (hv : AttrValue.ofToken? t = some v) {tokens : List (Token × Span)}
    (h : tokens.map (·.1) = [.word key, .equals, t]) :
    AttrItem.readAll final expected tokens = .ok [.pair key v] := by
  match tokens, h with
  | [(_, s₁), (_, s₂), (_, s₃)], h =>
      cases h
      rw [AttrItem.readAll, hv]
      rfl

theorem ofBody_pair (hq : q = '"' ∨ q = '\'') (hform : spec.form ≠ .expression)
    {c : Char} (hc : c.isAlpha = true) (hword : Token.isWordPart c = true) (hdash : c ≠ '-') :
    ofBody spec (.ofList (around [c, '='] q s [])) =
      .ok (ofItems spec [.pair (.ofList [c]) (.quoted (.ofList s))]) :=
  ofBody_of_tokens hform (trim_of_isTidy (isTidy_around hq hc rfl))
    (tokens?_pair hq hword hdash) fun final _ h =>
      readAll_pair final _ (ofToken?_quotedToken q s) h

theorem ofBody_name_pair (hq : q = '"' ∨ q = '\'')
    (hform : spec.form ≠ .expression) {c d : Char} (hc : c.isAlpha = true)
    (hword : Token.isWordPart c = true) (hdash : c ≠ '-') (hword' : Token.isWordPart d = true)
    (hdash' : d ≠ '-') : ofBody spec (.ofList (around [c, ' ', d, '='] q s [])) =
      .ok (ofItems spec [.positional (.bare (.ofList [c])),
        .pair (.ofList [d]) (.quoted (.ofList s))]) := by
  refine ofBody_of_tokens hform (trim_of_isTidy (isTidy_around hq hc rfl))
    (tokens?_word_pair hq hword hdash hword' hdash') fun final tokens h => ?_
  match tokens, h with
  | (t, s₁) :: (t', s₂) :: rest, h =>
      obtain ⟨rfl, hrest⟩ := List.cons.inj h
      obtain ⟨rfl, _⟩ := List.cons.inj hrest
      rw [AttrItem.readAll, readAll_pair final _ (ofToken?_quotedToken q s) hrest]
      · rfl
      · intro s h
        cases h
      · intro s t s' l h
        cases h

theorem ofBody_name (hform : spec.form ≠ .expression) {c : Char} (hc : isWord [c] = true)
    (hword : Token.isWordPart c = true) (hdash : c ≠ '-') :
    ofBody spec (.ofList [c]) = .ok (ofItems spec [.positional (.bare (.ofList [c]))]) := by
  have hts : tokens? [c] = some [.word (.ofList [c])] := by
    have hend : ∀ d ∈ ([] : List Char).head?, Token.isWordPart d = false := by
      rintro d ⟨⟩
    rw [tokens?_letter hword hdash hend, tokens?_nil]
    rfl
  refine ofBody_of_tokens hform (trim_of_isTidy (isTidy_of_isWord hc)) hts fun final tokens h => ?_
  match tokens, h with
  | [(_, s)], h =>
      cases h
      rfl

end Attributes

end TagTemplate
