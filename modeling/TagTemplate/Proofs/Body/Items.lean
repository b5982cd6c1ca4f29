import TagTemplate.Proofs.Body.Around
import TagTemplate.Proofs.Body.Lists

/-! # Attributes as they are written

The body of a tag is written as items with blanks behind them, or a comma, or both.  An item is a
name, or a pair of a key and a value.  `WrittenBody` is a body of perhaps a name, and pairs.

* `tokens?_printItems`: the tokens of items are those of each, and the commas.
* `AttrItem.readAll_items`: the items are read one after the other, with or without the commas.
* `Attributes.ofBody_printItems`: what a specification makes of the items that are written.
* `Attributes.ofBody_writtenBody`: reading a body undoes writing it.
* `TagArguments.ofBody_text`: so are the arguments of the tags of a script. -/

namespace TagTemplate

open Piece

/-! ### Syntax -/

def isBodyPart (c : Char) : Bool :=
  !Text.isWhiteSpace c && !Token.isPunctuation c

/-- A name or a value as it is written: a word, or any text in quotes. -/
structure BodyText where
  text : LoneText
  sound : text.Sound isBodyPart

/-- The value of a key as it is written.  The text of a list has no closing bracket, not even in
quotes. -/
inductive BodyValue where
  | lone (t : BodyText)
  | list (l : List ListSlot) (closed : ']' ∉ printList l)

namespace BodyValue

def print : BodyValue → List Char
  | lone t => t.text.print
  | list l _ => '[' :: (printList l ++ [']'])

def value : BodyValue → AttrValue
  | lone t => t.text.value
  | list l _ => .list (l.map (·.item.value))

end BodyValue

/-- A pair as it is written: a word, an equals sign and a value. -/
structure BodyPair where
  key : List Char
  sound : (LoneText.word key).Sound isBodyPart
  value : BodyValue

def BodyPair.pair (p : BodyPair) : String × AttrValue :=
  (.ofList p.key, p.value.value)

/-- An item of a body. -/
inductive BodyItem where
  | name (t : BodyText)
  | pair (p : BodyPair)

namespace BodyItem

def print : BodyItem → List Char
  | name t => t.text.print
  | pair p => p.key ++ '=' :: p.value.print

def item : BodyItem → AttrItem
  | name t => .positional t.text.value
  | pair p => .pair p.pair.1 p.pair.2

end BodyItem

/-- What stands behind an item: blanks, and at most one comma. -/
structure ItemGap where
  before : List Char := []
  comma : Bool := false
  after : List Char := []
  blank : (∀ c ∈ before, Token.isBlank c = true) ∧ ∀ c ∈ after, Token.isBlank c = true

def ItemGap.space : ItemGap where
  before := [' ']
  blank := ⟨List.forall_mem_singleton.mpr rfl, List.forall_mem_nil _⟩

/-- Nothing, as behind the last item. -/
def ItemGap.nothing : ItemGap where
  blank := ⟨List.forall_mem_nil _, List.forall_mem_nil _⟩

def ItemGap.print (g : ItemGap) : List Char :=
  g.before ++ ((if g.comma then [','] else []) ++ g.after)

def printItems (l : List (BodyItem × ItemGap)) : List Char :=
  l.flatMap fun x => x.1.print ++ x.2.print

/-- Something stands between any two items. -/
def Separated (l : List (BodyItem × ItemGap)) : Prop :=
  ∀ x ∈ l.dropLast, x.2.print ≠ []

/-- The items of a body with perhaps a name, and pairs. -/
def namedItems (name : Option (BodyText × ItemGap)) (pairs : List (BodyPair × ItemGap)) :
    List (BodyItem × ItemGap) :=
  name.toList.map (fun x => (.name x.1, x.2)) ++ pairs.map fun x => (.pair x.1, x.2)

/-- A body as it is written: blanks, perhaps a name, and pairs. -/
structure WrittenBody where
  lead : List Char := []
  name : Option (BodyText × ItemGap) := none
  pairs : List (BodyPair × ItemGap) := []
  blank : ∀ c ∈ lead, Token.isBlank c = true
  separated : Separated (namedItems name pairs)

def WrittenBody.print (b : WrittenBody) : List Char :=
  b.lead ++ printItems (namedItems b.name b.pairs)

/-! ### Characters -/

theorem isWhiteSpace_of_isBlank {c : Char} (h : Token.isBlank c = true) :
    Text.isWhiteSpace c = true := by
  rw [Token.isBlank, decide_eq_true_eq] at h
  rcases h with rfl | rfl | rfl | rfl <;> decide

theorem facts_of_isBodyPart {c : Char} (h : isBodyPart c = true) :
    Text.isWhiteSpace c = false ∧ Token.isWordPart c = true := by
  rw [isBodyPart, Bool.and_eq_true, Bool.not_eq_true', Bool.not_eq_true'] at h
  refine ⟨h.1, ?_⟩
  rw [Token.isWordPart, h.2, Bool.not_false, Bool.and_true, Bool.not_eq_true', ← Bool.not_eq_true]
  intro hblank
  rw [isWhiteSpace_of_isBlank hblank] at h
  exact Bool.noConfusion h.1

/-- What can follow a word: it neither goes on with the word nor makes an arrow of a dash. -/
def EndsWord (l : List Char) : Prop :=
  ∀ d ∈ l.head?, Token.isWordPart d = false ∧ d ≠ '>'

theorem endsWord_of_isBlank {c : Char} {l : List Char} (h : Token.isBlank c = true) :
    EndsWord (c :: l) := by
  rintro d ⟨⟩
  rw [Token.isBlank, decide_eq_true_eq] at h
  rcases h with rfl | rfl | rfl | rfl <;> decide

namespace PlainEnds

theorem append {s t : List Char} (hs : PlainEnds s) (w : List Char) (ht : PlainEnds t) :
    PlainEnds (s ++ (w ++ t)) := by
  obtain ⟨c, s, rfl⟩ := List.exists_cons_of_ne_nil hs.ne_nil
  have hlast : (c :: s ++ (w ++ t)).getLast? = t.getLast? := by
    rw [List.getLast?_append, List.getLast?_append, List.getLast?_eq_some_getLast ht.ne_nil]
    rfl
  exact ⟨List.cons_ne_nil _ _, hs.head, hlast ▸ ht.last⟩

theorem singleton {c : Char} (h : Text.isWhiteSpace c = false) : PlainEnds [c] := by
  refine ⟨List.cons_ne_nil c [], ?_, ?_⟩ <;> rintro d ⟨⟩ <;> exact h

end PlainEnds

theorem BodyText.ends (t : BodyText) : PlainEnds t.text.print :=
  t.sound.ends fun _ hc => (facts_of_isBodyPart hc).1

theorem BodyValue.ends (v : BodyValue) : PlainEnds v.print := by
  cases v with
  | lone t => exact t.ends
  | list l closed => exact .append (.singleton (by decide)) (printList l) (.singleton (by decide))

theorem BodyItem.ends (x : BodyItem) : PlainEnds x.print := by
  cases x with
  | name t => exact t.ends
  | pair p =>
      have hkey : PlainEnds (LoneText.word p.key).print :=
        p.sound.ends fun _ hc => (facts_of_isBodyPart hc).1
      exact hkey.append ['='] p.value.ends

/-- Behind the last item, or the comma after it, there are only blanks. -/
theorem exists_core_item (x : BodyItem) (g : ItemGap) : ∃ m b, x.print ++ g.print = m ++ b ∧
    PlainEnds m ∧ ∀ c ∈ b, Token.isBlank c = true := by
  cases hcomma : g.comma with
  | true =>
      refine ⟨x.print ++ (g.before ++ [',']), g.after, ?_, ?_, g.blank.2⟩
      · simp [ItemGap.print, hcomma]
      · exact x.ends.append g.before (.singleton (by decide))
  | false =>
      refine ⟨x.print, g.before ++ g.after, ?_, x.ends, fun c hc => ?_⟩
      · simp [ItemGap.print, hcomma]
      · exact (List.mem_append.mp hc).elim (g.blank.1 c) (g.blank.2 c)

theorem exists_core : ∀ l : List (BodyItem × ItemGap), l ≠ [] → ∃ m b, printItems l = m ++ b ∧
    PlainEnds m ∧ ∀ c ∈ b, Token.isBlank c = true
  | [], h => absurd rfl h
  | [(x, g)], _ => by
      rw [printItems, List.flatMap_singleton]
      exact exists_core_item x g
  | (x, g) :: y :: l, _ => by
      obtain ⟨m, b, htext, hm, hb⟩ := exists_core (y :: l) (List.cons_ne_nil y l)
      refine ⟨x.print ++ (g.print ++ m), b, ?_, x.ends.append g.print hm, hb⟩
      rw [printItems, List.flatMap_cons, ← printItems, htext, List.append_assoc, List.append_assoc,
        List.append_assoc]

theorem tokens?_trim_printItems {lead : List Char} (hlead : ∀ c ∈ lead, Token.isBlank c = true)
    (l : List (BodyItem × ItemGap)) :
    tokens? (Text.trim (lead ++ printItems l)) = tokens? (lead ++ printItems l) := by
  have hwhite {s : List Char} (hs : ∀ c ∈ s, Token.isBlank c = true) :
      ∀ c ∈ s, Text.isWhiteSpace c = true :=
    fun c hc => isWhiteSpace_of_isBlank (hs c hc)
  by_cases hl : l = []
  · have hnil : tokens? (Text.trim lead) = tokens? lead := by
      have hempty : Text.trim lead = [] := Text.strip_of_all (hwhite hlead)
      rw [hempty, tokens?_of_all_blank hlead, tokens?_nil]
    rwa [hl, printItems, List.flatMap_nil, List.append_nil]
  · obtain ⟨m, b, htext, hm, hb⟩ := exists_core l hl
    have hblank {c : Char} (hc : Text.isWhiteSpace c = false) : Token.isBlank c = false :=
      Bool.eq_false_iff.mpr fun h => Bool.eq_false_iff.mp hc (isWhiteSpace_of_isBlank h)
    have hstrip : Text.strip Token.isBlank (lead ++ m ++ b) = m :=
      Text.strip_around hlead (fun c hc => hblank (hm.head c hc))
        (fun c hc => hblank (hm.last c hc)) hb
    rw [htext, ← List.append_assoc, Text.trim,
      Text.strip_around (hwhite hlead) hm.head hm.last (hwhite hb), ← tokens?_strip (_ ++ _), hstrip]

/-! ### Tokens -/

namespace LoneText

def token : LoneText → Token
  | word w => .word (.ofList w)
  | quoted q s => quotedToken q.char s

theorem token_ne_equals (t : LoneText) : t.token ≠ .equals := by
  cases t with
  | word w => exact Token.noConfusion
  | quoted q s => cases q <;> exact Token.noConfusion

theorem ofToken?_token (t : LoneText) : AttrValue.ofToken? t.token = some t.value := by
  cases t with
  | word w => rfl
  | quoted q s => exact Attributes.ofToken?_quotedToken q.char s

end LoneText

namespace BodyValue

def token : BodyValue → Token
  | lone t => t.text.token
  | list l _ => .bracketed (.ofList (printList l))

theorem ofToken?_token (v : BodyValue) : AttrValue.ofToken? v.token = some v.value := by
  cases v with
  | lone t => exact t.text.ofToken?_token
  | list l closed => exact congrArg (some ∘ AttrValue.list) (AttrValue.items_printList l)

end BodyValue

def BodyItem.tokens : BodyItem → List Token
  | name t => [t.text.token]
  | pair p => [.word (.ofList p.key), .equals, p.value.token]

theorem BodyItem.head?_tokens (x : BodyItem) : ∃ t, x.tokens.head? = some t ∧ t ≠ .equals := by
  cases x with
  | name t => exact ⟨_, rfl, t.text.token_ne_equals⟩
  | pair p => exact ⟨_, rfl, Token.noConfusion⟩

def ItemGap.tokens (g : ItemGap) : List Token :=
  if g.comma then [.comma] else []

section tokens
variable {l : List Char}

theorem tokens?_bodyWord {w : List Char} (hw : (LoneText.word w).Sound isBodyPart)
    (hl : EndsWord l) : tokens? (w ++ l) = (tokens? l).map (.word (.ofList w) :: ·) := by
  obtain ⟨hne, hparts⟩ := hw
  obtain ⟨c, w, rfl⟩ := List.exists_cons_of_ne_nil hne
  have hpart (d : Char) (hd : d ∈ c :: w) : Token.isWordPart d = true :=
    (facts_of_isBodyPart (hparts d hd)).2
  have harrow : ¬ (c = '-' ∧ (w ++ l).head? = some '>') := by
    rintro ⟨-, hhead⟩
    cases w with
    | nil => exact (hl '>' hhead).2 rfl
    | cons d w =>
        cases hhead
        exact Bool.noConfusion (hpart '>' (List.mem_cons_of_mem c List.mem_cons_self))
  rw [List.cons_append, tokens?_cons, read_word (hpart c List.mem_cons_self) harrow,
    takeWhile_word (fun d hd => hpart d (List.mem_cons_of_mem c hd)) fun d hd => (hl d hd).1,
    List.drop_left]

theorem tokens?_bracketed {s : List Char} (hs : ']' ∉ s) :
    tokens? ('[' :: (s ++ ']' :: l)) = (tokens? l).map (.bracketed (.ofList s) :: ·) := by
  have hrun : (s ++ ']' :: l).takeWhile (· ≠ ']') = s := by
    rw [List.takeWhile_append_of_pos, List.takeWhile_cons_of_neg (by decide), List.append_nil]
    intro c hc
    rw [decide_eq_true_eq]
    rintro rfl
    exact hs hc
  have hlt : s.length < (s ++ ']' :: l).length := by
    rw [List.length_append, List.length_cons]
    omega
  have hdrop : (s ++ ']' :: l).drop (s.length + 1) = l := by
    rw [← List.drop_drop, List.drop_left, List.drop_one, List.tail_cons]
  rw [tokens?_cons, read_bracket, hrun, if_pos hlt]
  dsimp only
  rw [hdrop]

theorem tokens?_lone {t : LoneText} (ht : t.Sound isBodyPart) (hl : EndsWord l) :
    tokens? (t.print ++ l) = (tokens? l).map (t.token :: ·) := by
  cases t with
  | word w => exact tokens?_bodyWord ht hl
  | quoted q s => exact tokens?_quoted q.char_eq

theorem BodyValue.tokens?_print (v : BodyValue) (hl : EndsWord l) :
    tokens? (v.print ++ l) = (tokens? l).map (v.token :: ·) := by
  cases v with
  | lone t => exact tokens?_lone t.sound hl
  | list slots closed =>
      rw [print, List.cons_append, List.append_assoc]
      exact tokens?_bracketed closed

theorem BodyItem.tokens?_print (x : BodyItem) (hl : EndsWord l) :
    tokens? (x.print ++ l) = (tokens? l).map (x.tokens ++ ·) := by
  cases x with
  | name t => exact tokens?_lone t.sound hl
  | pair p =>
      have hequals : EndsWord ('=' :: (p.value.print ++ l)) := by
        rintro d ⟨⟩
        decide
      rw [print, List.append_assoc, List.cons_append, tokens?_bodyWord p.sound hequals,
        tokens?_equals, p.value.tokens?_print hl, Option.map_map, Option.map_map]
      rfl

theorem ItemGap.tokens?_print (g : ItemGap) :
    tokens? (g.print ++ l) = (tokens? l).map (g.tokens ++ ·) := by
  rw [print, tokens, List.append_assoc, tokens?_blanks g.blank.1]
  split
  · rw [List.append_assoc, List.singleton_append, tokens?_comma, tokens?_blanks g.blank.2]
    rfl
  · rw [List.nil_append, tokens?_blanks g.blank.2]
    simp

theorem ItemGap.endsWord (g : ItemGap) (h : g.print ≠ [] ∨ l = []) : EndsWord (g.print ++ l) := by
  rw [print] at h ⊢
  cases hbefore : g.before with
  | cons c before => exact endsWord_of_isBlank (g.blank.1 c (hbefore ▸ List.mem_cons_self))
  | nil =>
      rw [hbefore, List.nil_append] at h
      rw [List.nil_append]
      cases hcomma : g.comma with
      | true =>
          rintro d ⟨⟩
          decide
      | false =>
          rw [hcomma] at h
          cases hafter : g.after with
          | cons c after => exact endsWord_of_isBlank (g.blank.2 c (hafter ▸ List.mem_cons_self))
          | nil =>
              rw [hafter] at h
              rw [h.resolve_left fun h => h rfl]
              rintro d ⟨⟩

end tokens

theorem tokens?_printItems : ∀ {l : List (BodyItem × ItemGap)}, Separated l →
    tokens? (printItems l) = some (l.flatMap fun x => x.1.tokens ++ x.2.tokens)
  | [], _ => tokens?_nil
  | (x, g) :: l, h => by
      have hends : EndsWord (g.print ++ printItems l) := by
        refine g.endsWord ?_
        cases l with
        | nil => exact .inr rfl
        | cons y l => exact .inl (h (x, g) List.mem_cons_self)
      have hrest : Separated l := by
        intro y hy
        cases l with
        | nil => cases hy
        | cons z l => exact h y (List.mem_cons_of_mem _ hy)
      rw [printItems, List.flatMap_cons, ← printItems, List.append_assoc, x.tokens?_print hends,
        g.tokens?_print, tokens?_printItems hrest, List.flatMap_cons, List.append_assoc]
      rfl

/-! ### Items -/

namespace AttrItem

variable (final : Span) {rest : List (Token × Span)}

/-- A value that no equals sign follows stands alone; a comma can follow it. -/
theorem readAll_value {t : Token} {v : AttrValue} (ht : AttrValue.ofToken? t = some v)
    (hrest : ∀ s l, rest ≠ (.equals, s) :: l) (expected : List Expectation) (span : Span) :
    ∃ after, .token .comma ∈ after ∧ readAll final expected ((t, span) :: rest) =
      (readAll final after rest).map (positional v :: ·) := by
  cases t with
  | word w =>
      cases ht
      refine ⟨afterWord, by decide, ?_⟩
      rw [readAll]
      · exact fun s h => hrest s [] h
      · exact fun s u s' l h => hrest s _ h
  | doubleQuoted s | singleQuoted s | bracketed s =>
      cases ht
      exact ⟨afterValue, by decide, rfl⟩
  | _ => cases ht

/-- A name or a pair is read, unless an equals sign follows; a comma can follow it. -/
theorem readAll_item (x : BodyItem) {ts : List Token} (hts : ts.head? ≠ some .equals)
    (expected : List Expectation) {tokens : List (Token × Span)}
    (h : tokens.map (·.1) = x.tokens ++ ts) :
    ∃ after rest, .token .comma ∈ after ∧ rest.map (·.1) = ts ∧
      readAll final expected tokens = (readAll final after rest).map (x.item :: ·) := by
  cases x with
  | name t =>
      obtain ⟨⟨_, span⟩, rest, rfl, rfl, hrest⟩ := List.map_eq_cons_iff.mp h
      have hnext : ∀ s l, rest ≠ (.equals, s) :: l := by
        rintro s l rfl
        exact hts (congrArg List.head? hrest.symm)
      obtain ⟨after, hcomma, hread⟩ :=
        readAll_value final t.text.ofToken?_token hnext expected span
      exact ⟨after, rest, hcomma, hrest, hread⟩
  | pair p =>
      obtain ⟨⟨_, _⟩, _, rfl, rfl, hsign⟩ := List.map_eq_cons_iff.mp h
      obtain ⟨⟨_, _⟩, _, rfl, hequals, hvalue⟩ := List.map_eq_cons_iff.mp hsign
      obtain ⟨⟨_, _⟩, rest, rfl, rfl, hrest⟩ := List.map_eq_cons_iff.mp hvalue
      cases hequals
      refine ⟨afterValue, rest, by decide, hrest, ?_⟩
      rw [readAll, p.value.ofToken?_token]
      rfl

theorem readAll_gap (g : ItemGap) {ts : List Token} {expected : List Expectation}
    (hcomma : .token .comma ∈ expected) {tokens : List (Token × Span)}
    (h : tokens.map (·.1) = g.tokens ++ ts) :
    ∃ after rest, rest.map (·.1) = ts ∧
      readAll final expected tokens = readAll final after rest := by
  rw [ItemGap.tokens] at h
  split at h
  · obtain ⟨⟨_, span⟩, rest, rfl, rfl, hrest⟩ := List.map_eq_cons_iff.mp h
    exact ⟨[.endOfInput], rest, hrest, if_pos ⟨rfl, hcomma⟩⟩
  · exact ⟨expected, tokens, h, rfl⟩

/-- The items of a body are read one after the other, with or without the commas. -/
theorem readAll_items : ∀ {l : List (BodyItem × ItemGap)} {expected : List Expectation}
    {tokens : List (Token × Span)},
    tokens.map (·.1) = l.flatMap (fun x => x.1.tokens ++ x.2.tokens) →
      readAll final expected tokens = .ok (l.map (·.1.item))
  | [], _, [], _ => rfl
  | (x, g) :: l, expected, tokens, h => by
      rw [List.flatMap_cons, List.append_assoc] at h
      have hnext : (g.tokens ++ l.flatMap fun y => y.1.tokens ++ y.2.tokens).head? ≠
          some .equals := by
        rw [ItemGap.tokens]
        split
        · exact fun heq => Token.noConfusion (Option.some.inj heq)
        · cases l with
          | nil => exact nofun
          | cons y l =>
              obtain ⟨t, hhead, hne⟩ := y.1.head?_tokens
              rw [List.nil_append, List.flatMap_cons, List.append_assoc, List.head?_append, hhead]
              exact fun heq => hne (Option.some.inj heq)
      obtain ⟨after, rest, hcomma, hrest, hitem⟩ := readAll_item final x hnext expected h
      obtain ⟨after', rest', hrest', hgap⟩ := readAll_gap final g hcomma hrest
      rw [hitem, hgap, readAll_items hrest']
      rfl

end AttrItem

/-! ### Attributes -/

namespace Attributes

theorem ofBody_printItems (spec : AttributeSpec) (hform : spec.form ≠ .expression)
    {lead : List Char} (hlead : ∀ c ∈ lead, Token.isBlank c = true)
    {l : List (BodyItem × ItemGap)} (hl : Separated l) :
    ofBody spec (.ofList (lead ++ printItems l)) = .ok (ofItems spec (l.map (·.1.item))) := by
  have htokens : tokens? (Text.trim (lead ++ printItems l)) =
      some (l.flatMap fun x => x.1.tokens ++ x.2.tokens) := by
    rw [tokens?_trim_printItems hlead, tokens?_blanks hlead, tokens?_printItems hl]
  exact ofBody_of_tokens hform rfl htokens fun final tokens h => AttrItem.readAll_items final h

theorem items_namedItems (name : Option (BodyText × ItemGap)) (pairs : List (BodyPair × ItemGap)) :
    ((namedItems name pairs).map (·.1.item)).filterMap AttrItem.pair? = pairs.map (·.1.pair) ∧
      ((namedItems name pairs).map (·.1.item)).filterMap AttrItem.positional? =
        name.toList.map (·.1.text.value) := by
  have hpair : (pairs.map fun x => AttrItem.pair x.1.pair.1 x.1.pair.2).filterMap AttrItem.pair? =
      pairs.map (·.1.pair) := by
    rw [List.filterMap_map, ← List.filterMap_eq_map]
    rfl
  have hnone : (pairs.map fun x => AttrItem.pair x.1.pair.1 x.1.pair.2).filterMap
      AttrItem.positional? = [] := by
    rw [List.filterMap_map]
    exact List.filterMap_eq_nil_iff.mpr fun _ _ => rfl
  have hitems : (namedItems name pairs).map (·.1.item) =
      name.toList.map (fun x => AttrItem.positional x.1.text.value) ++
        pairs.map fun x => AttrItem.pair x.1.pair.1 x.1.pair.2 := by
    rw [namedItems, List.map_append, List.map_map, List.map_map]
    rfl
  rw [hitems, List.filterMap_append, List.filterMap_append, hpair, hnone]
  cases name <;> exact ⟨rfl, rfl⟩

theorem ofItems_namedItems (allowed : AllowedKeys) (name : Option (BodyText × ItemGap))
    (pairs : List (BodyPair × ItemGap)) :
    ofItems ⟨.name, allowed⟩ ((namedItems name pairs).map (·.1.item)) =
      { name := name.map (·.1.text.string)
        pairs := (pairs.map (·.1.pair)).filter fun p => allowed.allows p.1 } := by
  obtain ⟨hpairs, hnames⟩ := items_namedItems name pairs
  rw [ofItems, hpairs, hnames]
  dsimp only
  rw [List.head?_map, Option.map_map]
  cases name with
  | none => rfl
  | some x =>
      have hstring : x.1.text.value.asText = x.1.text.string := x.1.text.asText_value
      exact congrArg (fun n => Attributes.mk (some n) none _) hstring

/-- Reading a body undoes writing it, whatever stands between the items: there are the name and the
pairs that were written, in the same order.  Of declared keys only the pairs are kept. -/
theorem ofBody_writtenBody (b : WrittenBody) :
    ofBody ⟨.name, .any⟩ (.ofList b.print) =
        .ok { name := b.name.map (·.1.text.string), pairs := b.pairs.map (·.1.pair) } ∧
      ∀ keys, ofBody ⟨.name, .only keys⟩ (.ofList b.print) =
        .ok { name := b.name.map (·.1.text.string)
              pairs := (b.pairs.map (·.1.pair)).filter fun p => p.1 ∈ keys } := by
  have hbody (allowed : AllowedKeys) :=
    ofBody_printItems ⟨.name, allowed⟩ nofun b.blank b.separated
  refine ⟨?_, fun keys => ?_⟩
  · have hall : (b.pairs.map (·.1.pair)).filter (fun p => AllowedKeys.any.allows p.1) =
        b.pairs.map (·.1.pair) :=
      List.filter_eq_self.mpr fun _ _ => rfl
    rw [WrittenBody.print, hbody, ofItems_namedItems, hall]
  · rw [WrittenBody.print, hbody, ofItems_namedItems]
    rfl

/-- The body `row a="b c", d=e`. -/
def rowBody : WrittenBody where
  name := some (⟨.word ['r', 'o', 'w'], nofun, List.all_eq_true.mp rfl⟩, .space)
  pairs :=
    [(⟨['a'], ⟨nofun, List.forall_mem_singleton.mpr rfl⟩,
        .lone ⟨.quoted .double ['b', ' ', 'c'], ⟨⟩⟩⟩, { ItemGap.space with comma := true }),
      (⟨['d'], ⟨nofun, List.forall_mem_singleton.mpr rfl⟩,
        .lone ⟨.word ['e'], nofun, List.forall_mem_singleton.mpr rfl⟩⟩, .nothing)]
  blank := List.forall_mem_nil _
  separated := List.forall_mem_cons.mpr ⟨nofun, List.forall_mem_singleton.mpr nofun⟩

example : String.ofList rowBody.print = "row a=\"b c\" ,d=e" := by
  decide

example : ((ofBody ⟨.name, .any⟩ (.ofList rowBody.print)).toOption.map fun a =>
    (a.name, a.pairs.map fun p => (p.1, p.2.asText))) =
      some (some "row", [("a", "b c"), ("d", "e")]) := by
  decide +kernel

end Attributes

/-! ### The arguments of tags -/

theorem sound_of_isWord {w : List Char} (h : isWord w = true) :
    (LoneText.word w).Sound isBodyPart := by
  have hall : ∀ n < 128, (!(Char.ofNat n).isAlphanum || isBodyPart (Char.ofNat n)) = true := by
    decide +kernel
  rw [isWord, Bool.and_eq_true, List.all_eq_true] at h
  refine ⟨?_, fun c hc => ?_⟩
  · rintro rfl
    cases h.1
  · have hpart := forall_ascii (p := fun c => !c.isAlphanum || isBodyPart c) hall
      (toNat_lt_of_isAlphanum (h.2 c hc))
    rwa [h.2 c hc, Bool.not_true, Bool.false_or] at hpart

/-- An argument as an item of a body. -/
def TagArgument.item : TagArgument → BodyItem
  | plain w => .name ⟨.word w.1, sound_of_isWord w.2⟩
  | pair key value =>
    .pair ⟨key.1, sound_of_isWord key.2, .lone ⟨.word value.1, sound_of_isWord value.2⟩⟩

theorem TagArgument.print_item (x : TagArgument) : x.item.print = x.text := by
  cases x <;> rfl

namespace TagArguments

/-- An argument and those after it, with a blank between neighbours. -/
def itemsFrom (x : TagArgument) : List TagArgument → List (BodyItem × ItemGap)
  | [] => [(x.item, .nothing)]
  | y :: l => (x.item, .space) :: itemsFrom y l

variable (x : TagArgument) (l : List TagArgument)

theorem printItems_itemsFrom (s : List Char) :
    s ++ printItems (itemsFrom x l) =
      l.foldl (fun s x => s ++ ' ' :: x.text) (s ++ x.text) := by
  induction l generalizing x s with
  | nil =>
      rw [itemsFrom, printItems, List.flatMap_singleton, x.print_item]
      exact congrArg (s ++ ·) (List.append_nil _)
  | cons y l ih =>
      calc s ++ printItems (itemsFrom x (y :: l))
          = s ++ x.text ++ [' '] ++ printItems (itemsFrom y l) := by
            simp only [itemsFrom, printItems, List.flatMap_cons, x.print_item, List.append_assoc]
            rfl
        _ = l.foldl (fun s x => s ++ ' ' :: x.text) (s ++ x.text ++ [' '] ++ y.text) := ih y _
        _ = (y :: l).foldl (fun s x => s ++ ' ' :: x.text) (s ++ x.text) := by
            rw [List.append_assoc _ [' ']]
            rfl

theorem separated_itemsFrom : Separated (itemsFrom x l) := by
  induction l generalizing x with
  | nil => nofun
  | cons y l ih =>
      have hne : itemsFrom y l ≠ [] := by cases l <;> exact List.cons_ne_nil _ _
      rw [itemsFrom, Separated, List.dropLast_cons_of_ne_nil hne]
      exact List.forall_mem_cons.mpr ⟨List.cons_ne_nil _ _, ih y⟩

theorem map_item_itemsFrom : (itemsFrom x l).map (·.1.item) = (x :: l).map (·.item.item) := by
  induction l generalizing x with
  | nil => rfl
  | cons y l ih => rw [itemsFrom, List.map_cons, List.map_cons, ih]

/-- The arguments of a tag are read back as they were printed. -/
theorem ofBody_text (spec : AttributeSpec) (hform : spec.form ≠ .expression) (a : TagArguments) :
    Attributes.ofBody spec (.ofList a.text) =
      .ok (Attributes.ofItems spec ((a.first :: a.others).map (·.item.item))) := by
  have h := Attributes.ofBody_printItems spec hform (List.forall_mem_nil _)
    (separated_itemsFrom a.first a.others)
  rwa [printItems_itemsFrom, map_item_itemsFrom] at h

end TagArguments

end TagTemplate
