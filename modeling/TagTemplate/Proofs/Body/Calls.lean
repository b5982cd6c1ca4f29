import TagTemplate.Proofs.Body.Tokens

/-! # Expressions without the places of their tokens

Whether a text is an expression, and which one, depends on its tokens only.

* `Expression.toOption_parse`: the expression of a text is the one that its tokens form.
* `Expression.toOption_parse_strip`: blanks around an expression mean nothing.
* `Expression.toOption_parse_inside`: without its parentheses an expression is none any more. -/

namespace TagTemplate

/-- Tokens all at one place. -/
def unplaced (tokens : List (Token × Span)) : List (Token × Span) :=
  tokens.map fun t => (t.1, ⟨0, 0⟩)

@[simp] theorem unplaced_nil : unplaced [] = [] :=
  rfl

@[simp] theorem unplaced_cons (t : Token) (s : Span) (rest : List (Token × Span)) :
    unplaced ((t, s) :: rest) = (t, ⟨0, 0⟩) :: unplaced rest :=
  rfl

theorem exists_of_unplaced_eq_cons {tokens l : List (Token × Span)} {t : Token} {s : Span}
    (h : unplaced tokens = (t, s) :: l) : ∃ s' rest, tokens = (t, s') :: rest ∧ unplaced rest = l := by
  cases tokens with
  | nil => cases h
  | cons x rest =>
      cases h
      exact ⟨x.2, rest, rfl, rfl⟩

namespace Expression

open Piece

theorem toOption_map {α β : Type} (f : α → β) (x : Except ParseError α) :
    (x.map f).toOption = x.toOption.map f := by
  cases x <;> rfl

theorem eq_ok_of_toOption {α β : Type} {x : Except β α} {a : α} (h : x.toOption = some a) :
    x = .ok a := by
  cases x with
  | error e => cases h
  | ok b =>
      cases h
      rfl

theorem exists_of_map_eq_ok {α β γ : Type} {f : α → β} {x : Except γ α} {b : β}
    (h : x.map f = .ok b) : ∃ a, x = .ok a ∧ f a = b := by
  cases x with
  | error e => cases h
  | ok a =>
      cases h
      exact ⟨a, rfl, rfl⟩

theorem toOption_mapError {α β γ : Type} (f : β → γ) (x : Except β α) :
    (x.mapError f).toOption = x.toOption := by
  cases x <;> rfl

theorem readArguments_unplaced (final final' : Span) (tokens : List (Token × Span)) :
    (readArguments final tokens).toOption.map (fun p => (p.1, unplaced p.2))
      = (readArguments final' (unplaced tokens)).toOption := by
  fun_induction readArguments final tokens with
  | case1 | case6 => rfl
  | case2 t s rest hclose hnone =>
      rw [unplaced_cons, readArguments]
      · rw [hnone]
        rfl
      · exact hclose
  | case3 t s hclose a harg s' rest =>
      rw [unplaced_cons, unplaced_cons, readArguments]
      · rw [harg]
        rfl
      · exact hclose
  | case4 t s hclose a harg s' rest ih =>
      rw [unplaced_cons, unplaced_cons, readArguments]
      · rw [harg]
        dsimp only
        rw [toOption_map, toOption_map, ← ih, Option.map_map, Option.map_map]
        rfl
      · exact hclose
  | case5 t s hclose a harg rest hparen hcomma =>
      rw [unplaced_cons, readArguments]
      · rw [harg]
        rcases rest with _ | ⟨⟨t', s'⟩, rest⟩
        · rfl
        · cases t' with
          | parenClose => exact absurd rfl (hparen s' rest)
          | comma => exact absurd rfl (hcomma s' rest)
          | _ => rfl
      · exact hclose

theorem readOptions_unplaced (final final' : Span) (expected : List Expectation)
    (tokens : List (Token × Span)) : ∀ expected', (readOptions final expected tokens).toOption
      = (readOptions final' expected' (unplaced tokens)).toOption := by
  fun_induction readOptions final expected tokens with
  | case1 | case2 => exact fun _ => rfl
  | case3 expected key s s' t s'' rest v hv ih =>
      intro expected'
      rw [unplaced_cons, unplaced_cons, unplaced_cons, readOptions, hv]
      dsimp only
      rw [toOption_map, toOption_map, ih]
  | case4 expected key s s' t s'' rest hv =>
      intro expected'
      rw [unplaced_cons, unplaced_cons, unplaced_cons, readOptions, hv]
      rfl
  | case5 expected key s rest hlast hpair ih =>
      intro expected'
      rw [unplaced_cons, readOptions]
      · rw [toOption_map, toOption_map, ih]
      · intro s' h
        obtain ⟨s'', rest', rfl, hrest⟩ := exists_of_unplaced_eq_cons h
        rw [List.map_eq_nil_iff.mp hrest] at hlast
        exact hlast s'' rfl
      · intro s' t s'' l h
        obtain ⟨s₁, rest', rfl, hrest⟩ := exists_of_unplaced_eq_cons h
        obtain ⟨s₂, rest'', rfl, _⟩ := exists_of_unplaced_eq_cons hrest
        exact hpair s₁ t s₂ rest'' rfl
  | case6 expected rest hnil hlast hpair hword =>
      intro expected'
      rcases rest with _ | ⟨⟨t, s⟩, rest⟩
      · exact absurd rfl hnil
      · cases t with
        | word key => exact absurd rfl (hword key s rest)
        | _ => rfl

theorem readTail_unplaced (final final' : Span) (call : Expression)
    (tokens : List (Token × Span)) : (readTail final call tokens).toOption
      = (readTail final' call (unplaced tokens)).toOption := by
  fun_cases readTail final call tokens with
  | case1 s target s' rest =>
      rw [unplaced_cons, unplaced_cons, readTail, toOption_map, toOption_map]
      rw [readOptions_unplaced final final' _ rest]
  | case2 s rest hword =>
      rcases rest with _ | ⟨⟨t, s'⟩, rest⟩
      · rfl
      · cases t with
        | word target => exact absurd rfl (hword target s' rest)
        | _ => rfl
  | case3 _ hpair harrow =>
      rw [readTail, toOption_map, toOption_map, readOptions_unplaced final final' _ tokens]
      · intro s target s' rest h
        obtain ⟨s₁, rest', rfl, hrest⟩ := exists_of_unplaced_eq_cons h
        exact harrow s₁ rest' rfl
      · intro s rest h
        obtain ⟨s₁, rest', rfl, _⟩ := exists_of_unplaced_eq_cons h
        exact harrow s₁ rest' rfl

/-- What follows the name of a function: its arguments, and the rest. -/
def ofCall (final : Span) (function : Option String) :
    List (Token × Span) → Except ParseError Expression
  | (.parenOpen, _) :: rest =>
    match readArguments final rest with
    | .error e => .error e
    | .ok (arguments, rest) => readTail final { function, arguments } rest
  | rest => .error (unexpected final rest [.token .parenOpen])

theorem ofTokens_of_ne_word (final : Span) {tokens : List (Token × Span)}
    (h : ∀ f s rest, tokens ≠ (.word f, s) :: rest) :
    ofTokens final tokens = ofCall final none tokens := by
  rcases tokens with _ | ⟨⟨t, s⟩, rest⟩
  · rfl
  · cases t with
    | word f => exact absurd rfl (h f s rest)
    | _ => rfl

theorem ofCall_unplaced (final final' : Span) (function : Option String)
    (tokens : List (Token × Span)) : (ofCall final function tokens).toOption
      = (ofCall final' function (unplaced tokens)).toOption := by
  fun_cases ofCall final function tokens with
  | case1 s rest e h =>
      have hrest := readArguments_unplaced final final' rest
      rw [h] at hrest
      rw [unplaced_cons, ofCall]
      cases h' : readArguments final' (unplaced rest) with
      | error e' => rfl
      | ok p =>
          rw [h'] at hrest
          cases hrest
  | case2 s rest arguments rest' h =>
      have hrest := readArguments_unplaced final final' rest
      rw [h] at hrest
      rw [unplaced_cons, ofCall]
      cases h' : readArguments final' (unplaced rest) with
      | error e' =>
          rw [h'] at hrest
          cases hrest
      | ok p =>
          rw [h'] at hrest
          cases hrest
          exact readTail_unplaced final final' _ rest'
  | case3 _ hopen =>
      rw [ofCall]
      · rfl
      · intro s rest h
        obtain ⟨s', rest', rfl, _⟩ := exists_of_unplaced_eq_cons h
        exact hopen s' rest' rfl

/-- The expression that a list of tokens forms does not depend on their places. -/
theorem ofTokens_unplaced (final final' : Span) (tokens : List (Token × Span)) :
    (ofTokens final tokens).toOption = (ofTokens final' (unplaced tokens)).toOption := by
  by_cases hword : ∃ f s rest, tokens = (.word f, s) :: rest
  · obtain ⟨f, s, rest, rfl⟩ := hword
    exact ofCall_unplaced final final' (some f) rest
  · rw [ofTokens_of_ne_word, ofTokens_of_ne_word, ofCall_unplaced final final']
    · intro f s rest h
      obtain ⟨s', rest', rfl, _⟩ := exists_of_unplaced_eq_cons h
      exact hword ⟨f, s', rest', rfl⟩
    · exact fun f s rest h => hword ⟨f, s, rest, h⟩

/-- The expression that a list of tokens forms, if it forms one. -/
def ofTokens? (tokens : List Token) : Option Expression :=
  (ofTokens ⟨0, 0⟩ (tokens.map fun t => (t, ⟨0, 0⟩))).toOption

theorem ofTokens?_call (f : String) {t : Token} {a : Argument} (ha : Argument.ofToken? t = some a) :
    ofTokens? [.word f, .parenOpen, t, .parenClose] =
      some { function := some f, arguments := [a] } := by
  have hclose : t ≠ .parenClose := by
    rintro rfl
    cases ha
  have harguments : readArguments ⟨0, 0⟩ [(t, ⟨0, 0⟩), (.parenClose, ⟨0, 0⟩)] = .ok ([a], []) := by
    rw [readArguments]
    · rw [ha]
    · exact hclose
  show (ofTokens ⟨0, 0⟩ [(.word f, _), (.parenOpen, _), (t, _), (.parenClose, _)]).toOption = _
  dsimp only [ofTokens]
  rw [harguments]
  rfl

/-- Whether a text is an expression, and which one, depends on its tokens only. -/
theorem toOption_parse (source : String) :
    (parse source).toOption = (tokens? source.toList).bind ofTokens? := by
  rw [parse, ← tokens?_tokenize]
  cases tokenize source with
  | error e => rfl
  | ok tokens =>
      have hplaces : unplaced tokens = (tokens.map (·.1)).map fun t => (t, ⟨0, 0⟩) := by
        rw [unplaced, List.map_map]
        rfl
      have htokens := ofTokens_unplaced (endSpan source tokens) ⟨0, 0⟩ tokens
      rw [hplaces] at htokens
      dsimp only
      rw [toOption_mapError, htokens]
      rfl

/-! ### Expressions in parentheses -/

theorem parenOpen_not_mem_of_readOptions {final : Span} {expected : List Expectation}
    {tokens : List (Token × Span)} {options : List (String × Option Value)}
    (h : readOptions final expected tokens = .ok options) :
    ∀ t ∈ tokens, t.1 ≠ .parenOpen := by
  fun_induction readOptions final expected tokens generalizing options with
  | case1 => exact fun _ ht => absurd ht List.not_mem_nil
  | case2 | case4 | case6 => cases h
  | case3 expected key s s' t s'' rest v hv ih =>
      obtain ⟨options', hrest, _⟩ := exists_of_map_eq_ok h
      intro x hx
      rcases List.mem_cons.mp hx with rfl | hx
      · exact Token.noConfusion
      rcases List.mem_cons.mp hx with rfl | hx
      · exact Token.noConfusion
      rcases List.mem_cons.mp hx with rfl | hx
      · rintro rfl
        cases hv
      · exact ih hrest x hx
  | case5 expected key s rest hlast hpair ih =>
      obtain ⟨options', hrest, _⟩ := exists_of_map_eq_ok h
      intro x hx
      rcases List.mem_cons.mp hx with rfl | hx
      · exact Token.noConfusion
      · exact ih hrest x hx

theorem parenOpen_not_mem_of_readTail {final : Span} {call e : Expression}
    {tokens : List (Token × Span)} (h : readTail final call tokens = .ok e) :
    ∀ t ∈ tokens, t.1 ≠ .parenOpen := by
  fun_cases readTail final call tokens with
  | case1 s target s' rest =>
      rw [readTail] at h
      obtain ⟨options, hrest, _⟩ := exists_of_map_eq_ok h
      intro x hx
      rcases List.mem_cons.mp hx with rfl | hx
      · exact Token.noConfusion
      rcases List.mem_cons.mp hx with rfl | hx
      · exact Token.noConfusion
      · exact parenOpen_not_mem_of_readOptions hrest x hx
  | case2 s rest hword =>
      rw [readTail] at h
      · cases h
      · exact hword
  | case3 _ hpair harrow =>
      rw [readTail] at h
      · obtain ⟨options, hrest, _⟩ := exists_of_map_eq_ok h
        exact parenOpen_not_mem_of_readOptions hrest
      · exact fun s target s' rest heq => harrow s _ heq
      · exact harrow

theorem parenOpen_not_mem_of_readArguments {final : Span}
    {tokens rest : List (Token × Span)} {arguments : List Argument}
    (h : readArguments final tokens = .ok (arguments, rest))
    (hrest : ∀ t ∈ rest, t.1 ≠ .parenOpen) : ∀ t ∈ tokens, t.1 ≠ .parenOpen := by
  fun_induction readArguments final tokens generalizing arguments with
  | case1 s rest' =>
      cases h
      intro x hx
      rcases List.mem_cons.mp hx with rfl | hx
      · exact Token.noConfusion
      · exact hrest x hx
  | case2 | case5 | case6 => cases h
  | case3 t s hclose a harg s' rest' =>
      cases h
      intro x hx
      rcases List.mem_cons.mp hx with rfl | hx
      · rintro rfl
        cases harg
      rcases List.mem_cons.mp hx with rfl | hx
      · exact Token.noConfusion
      · exact hrest x hx
  | case4 t s hclose a harg s' rest' ih =>
      obtain ⟨p, hp, heq⟩ := exists_of_map_eq_ok h
      cases heq
      intro x hx
      rcases List.mem_cons.mp hx with rfl | hx
      · rintro rfl
        cases harg
      rcases List.mem_cons.mp hx with rfl | hx
      · exact Token.noConfusion
      · exact ih hp x hx

/-- Behind the name of a call stands a parenthesis, and no other one opens. -/
theorem parenOpen_of_ofCall {final : Span} {function : Option String} {e : Expression}
    {tokens : List (Token × Span)} (h : ofCall final function tokens = .ok e) :
    ∃ s rest, tokens = (.parenOpen, s) :: rest ∧ ∀ t ∈ rest, t.1 ≠ .parenOpen := by
  fun_cases ofCall final function tokens with
  | case1 s rest err harguments =>
      rw [ofCall, harguments] at h
      cases h
  | case2 s rest arguments rest' harguments =>
      rw [ofCall, harguments] at h
      exact ⟨s, rest, rfl, parenOpen_not_mem_of_readArguments harguments
        (parenOpen_not_mem_of_readTail h)⟩
  | case3 _ hopen =>
      rw [ofCall] at h
      · cases h
      · exact hopen

theorem parenOpen_mem_of_ofTokens {final : Span} {tokens : List (Token × Span)} {e : Expression}
    (h : ofTokens final tokens = .ok e) : ∃ t ∈ tokens, t.1 = .parenOpen := by
  by_cases hword : ∃ f s rest, tokens = (.word f, s) :: rest
  · obtain ⟨f, s, rest, rfl⟩ := hword
    obtain ⟨s', rest', rfl, _⟩ := parenOpen_of_ofCall h
    exact ⟨_, List.mem_cons_of_mem _ List.mem_cons_self, rfl⟩
  · rw [ofTokens_of_ne_word final fun f s rest h => hword ⟨f, s, rest, h⟩] at h
    obtain ⟨s', rest', rfl, _⟩ := parenOpen_of_ofCall h
    exact ⟨_, List.mem_cons_self, rfl⟩

/-- What stands in the parentheses of an expression without a function is no expression. -/
theorem ofTokens?_of_parenOpen {tokens inside : List Token} {e : Expression}
    (h : ofTokens? (.parenOpen :: tokens) = some e) (hinside : inside ⊆ tokens) :
    ofTokens? inside = none := by
  let placed (l : List Token) : List (Token × Span) := l.map fun t => (t, ⟨0, 0⟩)
  have hcall : ofCall ⟨0, 0⟩ none ((.parenOpen, ⟨0, 0⟩) :: placed tokens) = .ok e :=
    eq_ok_of_toOption h
  obtain ⟨s, rest, heq, hnone⟩ := parenOpen_of_ofCall hcall
  obtain ⟨_, rfl⟩ := List.cons.inj heq
  cases hinner : ofTokens ⟨0, 0⟩ (placed inside) with
  | error err =>
      show (ofTokens ⟨0, 0⟩ (placed inside)).toOption = none
      rw [hinner]
      rfl
  | ok e' =>
      obtain ⟨t, ht, hopen⟩ := parenOpen_mem_of_ofTokens hinner
      exact absurd hopen (hnone t (List.map_subset _ hinside ht))

/-! ### Blanks and parentheses around an expression -/

/-- Blanks around an expression mean nothing. -/
theorem toOption_parse_strip (s : List Char) :
    (parse (.ofList (Text.strip Token.isBlank s))).toOption = (parse (.ofList s)).toOption := by
  rw [toOption_parse, toOption_parse, String.toList_ofList, String.toList_ofList, tokens?_strip]

/-- The inside of an expression that stands in parentheses is no expression. -/
theorem toOption_parse_inside {s : List Char} {e : Expression}
    (h : (parse (.ofList ('(' :: (s ++ [')'])))).toOption = some e) :
    (parse (.ofList s)).toOption = none := by
  have hclose : ∀ c ∈ [')'], separates c = true := by
    intro c hc
    rw [List.mem_singleton.mp hc]
    rfl
  rw [toOption_parse, String.toList_ofList, tokens?_parenOpen, tokens?_append hclose] at h
  rw [toOption_parse, String.toList_ofList]
  cases htokens : tokens? s with
  | none => rfl
  | some ts =>
      rw [htokens, tokens?_parenClose, tokens?_nil] at h
      have hwhole : ofTokens? (.parenOpen :: (ts ++ [.parenClose])) = some e := h
      exact ofTokens?_of_parenOpen hwhole (List.subset_append_left _ _)

end Expression

end TagTemplate
