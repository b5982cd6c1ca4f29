import Mathlib.Data.List.Chain
import TagTemplate.Proofs.Body.Calls
import TagTemplate.Proofs.Body.Lists

/-! # Expressions as they are written

`Phrase` is the syntax of an expression: perhaps the name of a function, arguments in parentheses
with commas between them, perhaps a target, and options.  `Phrase.tokens` writes it down and
`Phrase.expression` is what it means.

* `Phrase.tokens_injective`: tokens are read in one way at most.
* `ofTokens?_tokens` and `exists_phrase_of_ofTokens`: the tokens of a phrase form its expression, and
  no other tokens form one.
* `parse_iff_phrase`: the texts of phrases are the expressions, all others are errors. -/

namespace TagTemplate

open Piece

/-! ### Syntax -/

/-- A text as it is written: a word, or in quotes of one of the two kinds. -/
inductive WrittenText where
  | word (w : String)
  | doubleQuoted (s : String)
  | singleQuoted (s : String)
deriving DecidableEq, Repr

namespace WrittenText

def token : WrittenText → Token
  | word w => .word w
  | doubleQuoted s => .doubleQuoted s
  | singleQuoted s => .singleQuoted s

/-- The value meant: words are typed, text in quotes stays text. -/
def value : WrittenText → Value
  | word w => .ofBare w
  | doubleQuoted s => .text s
  | singleQuoted s => .text s

theorem token_injective {t u : WrittenText} (h : t.token = u.token) : t = u := by
  cases t <;> cases u <;> cases h <;> rfl

theorem optionValue?_token (t : WrittenText) : Expression.optionValue? t.token = some t.value := by
  cases t <;> rfl

theorem exists_of_optionValue? {t : Token} {v : Value} (h : Expression.optionValue? t = some v) :
    ∃ u : WrittenText, u.token = t := by
  cases t with
  | word w => exact ⟨.word w, rfl⟩
  | doubleQuoted s => exact ⟨.doubleQuoted s, rfl⟩
  | singleQuoted s => exact ⟨.singleQuoted s, rfl⟩
  | _ => cases h

end WrittenText

/-- An argument as it is written: a text, or a list in brackets. -/
inductive WrittenArgument where
  | text (t : WrittenText)
  | list (inside : String)
deriving DecidableEq, Repr

namespace WrittenArgument

def token : WrittenArgument → Token
  | text t => t.token
  | list inside => .bracketed inside

/-- The argument meant.  A word behind a dollar sign is the name of a variable, and so is a word that
is no literal; the other words are the literals that they write. -/
def argument : WrittenArgument → Argument
  | text (.word w) =>
    match w.toList with
    | '$' :: name => .reference (.ofList name)
    | _ =>
      match Value.ofBare w with
      | .text _ => .reference w
      | v => .literal v
  | text t => .literal t.value
  | list inside => .literal (.list ((AttrValue.items inside).map AttrValue.toValue))

theorem token_injective {a b : WrittenArgument} (h : a.token = b.token) : a = b := by
  cases a with
  | text t =>
      cases b with
      | text u => rw [WrittenText.token_injective h]
      | list inside => cases t <;> cases h
  | list inside =>
      cases b with
      | text u => cases u <;> cases h
      | list inside' =>
          cases h
          rfl

theorem ofWord_eq (w : String) : Argument.ofWord w = (text (.word w)).argument := by
  rw [Argument.ofWord, argument]
  cases hname : Text.dropPrefix? ['$'] w.toList with
  | some name =>
      rw [Text.eq_append_of_dropPrefix? hname]
      rfl
  | none =>
      symm
      split
      · next name hdollar =>
        rw [hdollar, Text.dropPrefix?, if_pos rfl] at hname
        cases hname
      · rfl

theorem ofToken?_token (a : WrittenArgument) : Argument.ofToken? a.token = some a.argument := by
  rcases a with (w | _ | _) | inside
  · exact congrArg some (ofWord_eq w)
  · rfl
  · rfl
  · rw [argument, ← AttrValue.itemValues_eq_map]
    rfl

theorem exists_of_ofToken? {t : Token} {a : Argument} (h : Argument.ofToken? t = some a) :
    ∃ b : WrittenArgument, b.token = t := by
  cases t with
  | word w => exact ⟨.text (.word w), rfl⟩
  | doubleQuoted s => exact ⟨.text (.doubleQuoted s), rfl⟩
  | singleQuoted s => exact ⟨.text (.singleQuoted s), rfl⟩
  | bracketed s => exact ⟨.list s, rfl⟩
  | _ => cases h

theorem token_ne_comma (a : WrittenArgument) : a.token ≠ .comma := by
  rcases a with (_ | _ | _) | _ <;> exact Token.noConfusion

theorem token_ne_parenClose (a : WrittenArgument) : a.token ≠ .parenClose := by
  rcases a with (_ | _ | _) | _ <;> exact Token.noConfusion

/-- Arguments with a comma behind each of them; behind the last one only if `comma` holds. -/
def tokens (comma : Bool) : List WrittenArgument → List Token
  | [] => []
  | a :: rest =>
    a.token :: if rest = [] ∧ comma = false then [] else .comma :: tokens comma rest

end WrittenArgument

/-- An option as it is written: a name, perhaps with a value. -/
def optionTokens : String × Option WrittenText → List Token
  | (key, none) => [.word key]
  | (key, some t) => [.word key, .equals, t.token]

/-- An expression as it is written.  Only behind an argument a comma can stand before the closing
parenthesis. -/
structure Phrase where
  function : Option String := none
  arguments : List WrittenArgument := []
  comma : Bool := false
  target : Option String := none
  options : List (String × Option WrittenText) := []
  comma_eq_false : arguments = [] → comma = false

namespace Phrase

def targetTokens : Option String → List Token
  | none => []
  | some name => [.arrow, .word name]

/-- What stands behind the closing parenthesis. -/
def tail (p : Phrase) : List Token :=
  targetTokens p.target ++ p.options.flatMap optionTokens

/-- The tokens from the opening parenthesis on. -/
def call (p : Phrase) : List Token :=
  .parenOpen :: (WrittenArgument.tokens p.comma p.arguments ++ .parenClose :: p.tail)

def tokens (p : Phrase) : List Token :=
  p.function.toList.map .word ++ p.call

def expression (p : Phrase) : Expression where
  function := p.function
  arguments := p.arguments.map (·.argument)
  target := p.target
  options := p.options.map fun o => (o.1, o.2.map (·.value))

end Phrase

/-- What can stand next to each other in a phrase: before a comma an argument, behind an equals sign
a text. -/
structure Adjoins (t u : Token) : Prop where
  comma : u = .comma → ∃ a : WrittenArgument, a.token = t
  equals : t = .equals → ∃ v : WrittenText, v.token = u

/-! ### Tokens are read in one way -/

/-- Arguments are read in one way, also behind a comma, where `k` is true: there the list may end
because the comma was the last one. -/
theorem WrittenArgument.tokens_unique {l m : List Token} {c d : Bool} :
    ∀ {as bs : List WrittenArgument} {k : Bool}, (as = [] → c = k) → (bs = [] → d = k) →
      tokens c as ++ .parenClose :: l = tokens d bs ++ .parenClose :: m →
        as = bs ∧ c = d ∧ l = m
  | [], [], _, hc, hd, h => ⟨rfl, (hc rfl).trans (hd rfl).symm, (List.cons.inj h).2⟩
  | [], b :: _, _, _, _, h => absurd (List.cons.inj h).1.symm b.token_ne_parenClose
  | a :: _, [], _, _, _, h => absurd (List.cons.inj h).1 a.token_ne_parenClose
  | a :: as, b :: bs, _, _, _, h => by
      rw [tokens, tokens] at h
      obtain ⟨hab, hrest⟩ := List.cons.inj h
      rw [token_injective hab]
      split at hrest
      · next hlast =>
        split at hrest
        · next hlast' =>
          obtain ⟨-, hlm⟩ := List.cons.inj hrest
          exact ⟨by rw [hlast.1, hlast'.1], hlast.2.trans hlast'.2.symm, hlm⟩
        · exact absurd (List.cons.inj hrest).1 Token.noConfusion
      · next hmore =>
        split at hrest
        · exact absurd (List.cons.inj hrest).1 Token.noConfusion
        · next hmore' =>
          have hk {c : Bool} {as : List WrittenArgument} (h : ¬ (as = [] ∧ c = false)) :
              as = [] → c = true :=
            fun has => (Bool.not_eq_false c).mp fun hc => h ⟨has, hc⟩
          obtain ⟨htail, hcd, hlm⟩ := tokens_unique (hk hmore) (hk hmore') (List.cons.inj hrest).2
          exact ⟨by rw [htail], hcd, hlm⟩

theorem exists_word_of_options {options : List (String × Option WrittenText)} {t : Token}
    {l : List Token} (h : options.flatMap optionTokens = t :: l) : ∃ w, t = .word w := by
  rcases options with _ | ⟨⟨key, _ | v⟩, rest⟩
  · exact nomatch h
  · exact ⟨key, (List.cons.inj h).1.symm⟩
  · exact ⟨key, (List.cons.inj h).1.symm⟩

theorem options_unique : ∀ {os ps : List (String × Option WrittenText)},
    os.flatMap optionTokens = ps.flatMap optionTokens → os = ps
  | [], [], _ => rfl
  | [], (_, none) :: _, h | [], (_, some _) :: _, h => nomatch h
  | (_, none) :: _, [], h | (_, some _) :: _, [], h => nomatch h
  | (key, none) :: os, (key', none) :: ps, h => by
      obtain ⟨hkey, hrest⟩ := List.cons.inj h
      rw [Token.word.inj hkey, options_unique hrest]
  | (key, none) :: os, (key', some v) :: ps, h => by
      obtain ⟨_, hw⟩ := exists_word_of_options (List.cons.inj h).2
      cases hw
  | (key, some v) :: os, (key', none) :: ps, h => by
      obtain ⟨_, hw⟩ := exists_word_of_options (List.cons.inj h).2.symm
      cases hw
  | (key, some v) :: os, (key', some v') :: ps, h => by
      obtain ⟨hkey, hrest⟩ := List.cons.inj h
      obtain ⟨hv, hrest⟩ := List.cons.inj (List.cons.inj hrest).2
      rw [Token.word.inj hkey, WrittenText.token_injective hv, options_unique hrest]

namespace Phrase

theorem tail_unique {p q : Phrase} (h : p.tail = q.tail) :
    p.target = q.target ∧ p.options = q.options := by
  rw [tail, tail] at h
  cases hp : p.target with
  | none =>
      cases hq : q.target with
      | none =>
          rw [hp, hq] at h
          exact ⟨rfl, options_unique h⟩
      | some target =>
          rw [hp, hq] at h
          obtain ⟨_, hw⟩ := exists_word_of_options h
          cases hw
  | some target =>
      cases hq : q.target with
      | none =>
          rw [hp, hq] at h
          obtain ⟨_, hw⟩ := exists_word_of_options h.symm
          cases hw
      | some target' =>
          rw [hp, hq] at h
          obtain ⟨-, hrest⟩ := List.cons.inj h
          obtain ⟨htarget, hoptions⟩ := List.cons.inj hrest
          exact ⟨by rw [Token.word.inj htarget], options_unique hoptions⟩

theorem call_unique {p q : Phrase} (h : p.call = q.call) (hfunction : p.function = q.function) :
    p = q := by
  obtain ⟨harguments, hcomma, htail⟩ :=
    WrittenArgument.tokens_unique p.comma_eq_false q.comma_eq_false (List.cons.inj h).2
  obtain ⟨htarget, hoptions⟩ := tail_unique htail
  cases p
  cases q
  cases hfunction
  cases harguments
  cases hcomma
  cases htarget
  cases hoptions
  rfl

/-- Tokens are read in one way at most. -/
theorem tokens_injective {p q : Phrase} (h : p.tokens = q.tokens) : p = q := by
  rw [tokens, tokens] at h
  cases hp : p.function with
  | none =>
      cases hq : q.function with
      | none =>
          rw [hp, hq] at h
          exact call_unique h (hp.trans hq.symm)
      | some f =>
          rw [hp, hq] at h
          exact absurd (List.cons.inj h).1 Token.noConfusion
  | some f =>
      cases hq : q.function with
      | none =>
          rw [hp, hq] at h
          exact absurd (List.cons.inj h).1 Token.noConfusion
      | some g =>
          rw [hp, hq] at h
          obtain ⟨hf, hcall⟩ := List.cons.inj h
          exact call_unique hcall (by rw [hp, hq, Token.word.inj hf])

end Phrase

/-! ### Neighbours in a phrase -/

theorem Adjoins.of_ne {t u : Token} (ht : t ≠ .equals) (hu : u ≠ .comma) : Adjoins t u :=
  ⟨fun h => absurd h hu, fun h => absurd h ht⟩

theorem isChain_options : ∀ options : List (String × Option WrittenText),
    (options.flatMap optionTokens).IsChain Adjoins
  | [] => .nil
  | (key, none) :: options => by
      refine List.isChain_cons.mpr ⟨fun u hu => .of_ne Token.noConfusion ?_, isChain_options options⟩
      obtain ⟨w, rfl⟩ := exists_word_of_options (List.eq_cons_of_mem_head? hu)
      exact Token.noConfusion
  | (key, some v) :: options => by
      have hkey : Adjoins (.word key) .equals := .of_ne Token.noConfusion Token.noConfusion
      have hequals : Adjoins .equals v.token := by
        refine ⟨fun h => ?_, fun _ => ⟨v, rfl⟩⟩
        cases v <;> cases h
      refine List.isChain_cons_cons.mpr ⟨hkey, List.isChain_cons_cons.mpr ⟨hequals, ?_⟩⟩
      refine List.isChain_cons.mpr ⟨fun u hu => .of_ne ?_ ?_, isChain_options options⟩
      · cases v <;> exact Token.noConfusion
      · obtain ⟨w, rfl⟩ := exists_word_of_options (List.eq_cons_of_mem_head? hu)
        exact Token.noConfusion

theorem isChain_arguments (comma : Bool) {l : List Token}
    (h : (Token.parenClose :: l).IsChain Adjoins) : ∀ arguments : List WrittenArgument,
      (WrittenArgument.tokens comma arguments ++ .parenClose :: l).IsChain Adjoins ∧
        (WrittenArgument.tokens comma arguments ++ .parenClose :: l).head? ≠ some .comma
  | [] => ⟨h, fun heq => Token.noConfusion (Option.some.inj heq)⟩
  | a :: rest => by
      obtain ⟨hrest, hhead⟩ := isChain_arguments comma h rest
      have hne : a.token ≠ .equals := by
        rcases a with (_ | _ | _) | _ <;> exact Token.noConfusion
      refine ⟨?_, fun heq => a.token_ne_comma (Option.some.inj heq)⟩
      rw [WrittenArgument.tokens]
      split
      · exact List.isChain_cons_cons.mpr ⟨.of_ne hne Token.noConfusion, h⟩
      · have hcomma : Adjoins a.token .comma := ⟨fun _ => ⟨a, rfl⟩, fun heq => absurd heq hne⟩
        refine List.isChain_cons_cons.mpr ⟨hcomma, List.isChain_cons.mpr ⟨fun u hu => ?_, hrest⟩⟩
        refine .of_ne Token.noConfusion ?_
        rintro rfl
        exact hhead hu

namespace Phrase

theorem isChain_tail (p : Phrase) : (Token.parenClose :: p.tail).IsChain Adjoins := by
  have hword {t : Token} {l : List Token} (ht : t ≠ .equals) (hl : l.IsChain Adjoins)
      (hhead : l.head? ≠ some .comma) : (t :: l).IsChain Adjoins := by
    refine List.isChain_cons.mpr ⟨fun u hu => .of_ne ht ?_, hl⟩
    rintro rfl
    exact hhead hu
  have hoptions : (p.options.flatMap optionTokens).head? ≠ some .comma := by
    intro h
    obtain ⟨w, hw⟩ := exists_word_of_options (List.eq_cons_of_mem_head? h)
    cases hw
  rw [tail]
  cases p.target with
  | none => exact hword Token.noConfusion (isChain_options _) hoptions
  | some target =>
      refine hword Token.noConfusion (hword Token.noConfusion (hword Token.noConfusion
        (isChain_options _) hoptions) ?_) ?_
      · simp
      · simp [targetTokens]

/-- In a phrase only arguments stand before commas, and only texts behind equals signs. -/
theorem isChain_tokens (p : Phrase) : p.tokens.IsChain Adjoins := by
  obtain ⟨harguments, hhead⟩ := isChain_arguments p.comma p.isChain_tail p.arguments
  have hcall : p.call.IsChain Adjoins := by
    refine List.isChain_cons.mpr ⟨fun u hu => .of_ne Token.noConfusion ?_, harguments⟩
    rintro rfl
    exact hhead hu
  rw [tokens]
  cases p.function with
  | none => exact hcall
  | some f => exact List.isChain_cons_cons.mpr ⟨.of_ne Token.noConfusion Token.noConfusion, hcall⟩

end Phrase

/-! ### Tokens of phrases are read -/

namespace Expression

def placed (tokens : List Token) : List (Token × Span) :=
  tokens.map fun t => (t, ⟨0, 0⟩)

theorem placed_cons (t : Token) (l : List Token) : placed (t :: l) = (t, ⟨0, 0⟩) :: placed l :=
  rfl

theorem readArguments_tokens (final : Span) (comma : Bool) (rest : List Token) :
    ∀ arguments : List WrittenArgument,
      readArguments final (placed (WrittenArgument.tokens comma arguments ++ .parenClose :: rest)) =
        .ok (arguments.map (·.argument), placed rest)
  | [] => rfl
  | a :: arguments => by
      rw [WrittenArgument.tokens, List.cons_append, placed_cons, readArguments]
      · rw [WrittenArgument.ofToken?_token]
        by_cases hlast : arguments = [] ∧ comma = false
        · rw [if_pos hlast, hlast.1]
          rfl
        · rw [if_neg hlast, List.cons_append, placed_cons]
          dsimp only
          rw [readArguments_tokens final comma rest arguments]
          rfl
      · exact fun h => a.token_ne_parenClose h

theorem exists_word_of_placed {options : List (String × Option WrittenText)} {t : Token} {s : Span}
    {l : List (Token × Span)} (h : placed (options.flatMap optionTokens) = (t, s) :: l) :
    ∃ w, t = .word w := by
  obtain ⟨u, rest, hrest, hu, -⟩ := List.map_eq_cons_iff.mp h
  cases hu
  exact exists_word_of_options hrest

theorem readOptions_tokens (final : Span) :
    ∀ (expected : List Expectation) (options : List (String × Option WrittenText)),
      readOptions final expected (placed (options.flatMap optionTokens)) =
        .ok (options.map fun o => (o.1, o.2.map (·.value)))
  | _, [] => rfl
  | _, (key, some v) :: options => by
      rw [List.flatMap_cons, optionTokens]
      show readOptions final _
        ((.word key, _) :: (.equals, _) :: (v.token, _) :: placed (options.flatMap optionTokens)) = _
      rw [readOptions, v.optionValue?_token]
      dsimp only
      rw [readOptions_tokens]
      rfl
  | _, (key, none) :: options => by
      have hnext {s : Span} {l : List (Token × Span)} :
          placed (options.flatMap optionTokens) ≠ (.equals, s) :: l := by
        intro h
        obtain ⟨w, hw⟩ := exists_word_of_placed h
        cases hw
      rw [List.flatMap_cons, optionTokens]
      show readOptions final _ ((.word key, _) :: placed (options.flatMap optionTokens)) = _
      rw [readOptions, readOptions_tokens]
      · rfl
      · exact fun s h => hnext h
      · exact fun s t s' l h => hnext h

theorem readTail_tokens (final : Span) (p : Phrase) :
    readTail final { function := p.function, arguments := p.arguments.map (·.argument) }
      (placed p.tail) = .ok p.expression := by
  rw [Phrase.tail, Phrase.expression]
  cases p.target with
  | none =>
      have harrow {s : Span} {l : List (Token × Span)} :
          placed (p.options.flatMap optionTokens) ≠ (.arrow, s) :: l := by
        intro h
        obtain ⟨w, hw⟩ := exists_word_of_placed h
        cases hw
      rw [Phrase.targetTokens, List.nil_append, readTail, readOptions_tokens]
      · rfl
      · exact fun s w s' l h => harrow h
      · exact fun s l h => harrow h
  | some target =>
      show readTail final _
        ((.arrow, _) :: (.word target, _) :: placed (p.options.flatMap optionTokens)) = _
      rw [readTail, readOptions_tokens]
      rfl

theorem ofTokens?_tokens (p : Phrase) : ofTokens? p.tokens = some p.expression := by
  have hcall (final : Span) : ofCall final p.function (placed p.call) = .ok p.expression := by
    rw [Phrase.call, placed_cons, ofCall, readArguments_tokens]
    exact readTail_tokens final p
  have htokens : ofTokens ⟨0, 0⟩ (placed p.tokens) = .ok p.expression := by
    rw [Phrase.tokens]
    cases hf : p.function with
    | none =>
        rw [ofTokens_of_ne_word, ← hcall ⟨0, 0⟩, hf]
        · rfl
        · intro f s rest h
          cases h
    | some f =>
        rw [← hcall, hf]
        rfl
  rw [ofTokens?, ← placed, htokens]
  rfl

/-! ### Only tokens of phrases are read -/

theorem exists_of_readArguments {final : Span} {tokens rest : List (Token × Span)}
    {arguments : List Argument} (h : readArguments final tokens = .ok (arguments, rest)) :
    ∃ (written : List WrittenArgument) (comma : Bool), (written = [] → comma = false) ∧
      tokens.map (·.1) = WrittenArgument.tokens comma written ++ .parenClose :: rest.map (·.1) := by
  fun_induction readArguments final tokens generalizing arguments with
  | case1 s rest' =>
      cases h
      exact ⟨[], false, fun _ => rfl, rfl⟩
  | case2 | case5 | case6 => cases h
  | case3 t s hclose a harg s' rest' =>
      cases h
      obtain ⟨b, rfl⟩ := WrittenArgument.exists_of_ofToken? harg
      exact ⟨[b], false, fun h => absurd h (List.cons_ne_nil _ _), rfl⟩
  | case4 t s hclose a harg s' rest' ih =>
      obtain ⟨p, hp, heq⟩ := exists_of_map_eq_ok h
      cases heq
      obtain ⟨b, rfl⟩ := WrittenArgument.exists_of_ofToken? harg
      obtain ⟨written, comma, hcomma, htokens⟩ := ih hp
      cases written with
      | nil =>
          -- the comma is the last thing before the parenthesis
          exact ⟨[b], true, fun h => absurd h (List.cons_ne_nil _ _),
            congrArg ([b.token, .comma] ++ ·) htokens⟩
      | cons c written =>
          refine ⟨b :: c :: written, comma, fun h => absurd h (List.cons_ne_nil _ _), ?_⟩
          rw [WrittenArgument.tokens, if_neg fun h => List.cons_ne_nil c written h.1]
          exact congrArg ([b.token, .comma] ++ ·) htokens

theorem exists_of_readOptions {final : Span} {expected : List Expectation}
    {tokens : List (Token × Span)} {options : List (String × Option Value)}
    (h : readOptions final expected tokens = .ok options) :
    ∃ written : List (String × Option WrittenText),
      tokens.map (·.1) = written.flatMap optionTokens := by
  fun_induction readOptions final expected tokens generalizing options with
  | case1 => exact ⟨[], rfl⟩
  | case2 | case4 | case6 => cases h
  | case3 expected key s s' t s'' rest v hv ih =>
      obtain ⟨_, hrest, -⟩ := exists_of_map_eq_ok h
      obtain ⟨written, htokens⟩ := ih hrest
      obtain ⟨u, rfl⟩ := WrittenText.exists_of_optionValue? hv
      exact ⟨(key, some u) :: written, congrArg ([.word key, .equals, u.token] ++ ·) htokens⟩
  | case5 expected key s rest hlast hpair ih =>
      obtain ⟨_, hrest, -⟩ := exists_of_map_eq_ok h
      obtain ⟨written, htokens⟩ := ih hrest
      exact ⟨(key, none) :: written, congrArg (Token.word key :: ·) htokens⟩

theorem exists_of_readTail {final : Span} {call e : Expression} {tokens : List (Token × Span)}
    (h : readTail final call tokens = .ok e) :
    ∃ (target : Option String) (options : List (String × Option WrittenText)),
      tokens.map (·.1) = Phrase.targetTokens target ++ options.flatMap optionTokens := by
  fun_cases readTail final call tokens with
  | case1 s target s' rest =>
      rw [readTail] at h
      obtain ⟨_, hrest, -⟩ := exists_of_map_eq_ok h
      obtain ⟨options, htokens⟩ := exists_of_readOptions hrest
      exact ⟨some target, options, congrArg ([Token.arrow, .word target] ++ ·) htokens⟩
  | case2 s rest hword =>
      rw [readTail] at h
      · cases h
      · exact hword
  | case3 _ hpair harrow =>
      rw [readTail] at h
      · obtain ⟨_, hrest, -⟩ := exists_of_map_eq_ok h
        obtain ⟨options, htokens⟩ := exists_of_readOptions hrest
        exact ⟨none, options, htokens⟩
      · exact fun s target s' rest heq => harrow s _ heq
      · exact harrow

theorem exists_phrase_of_ofCall {final : Span} {function : Option String} {e : Expression}
    {tokens : List (Token × Span)} (h : ofCall final function tokens = .ok e) :
    ∃ p : Phrase, p.function = function ∧ p.call = tokens.map (·.1) := by
  fun_cases ofCall final function tokens with
  | case1 s rest err harguments =>
      rw [ofCall, harguments] at h
      cases h
  | case2 s rest arguments rest' harguments =>
      rw [ofCall, harguments] at h
      obtain ⟨written, comma, hcomma, htokens⟩ := exists_of_readArguments harguments
      obtain ⟨target, options, htail⟩ := exists_of_readTail h
      refine ⟨⟨function, written, comma, target, options, hcomma⟩, rfl, ?_⟩
      rw [List.map_cons, htokens, htail]
      rfl
  | case3 _ hopen =>
      rw [ofCall] at h
      · cases h
      · exact hopen

/-- Only the tokens of phrases form expressions. -/
theorem exists_phrase_of_ofTokens {final : Span} {e : Expression} {tokens : List (Token × Span)}
    (h : ofTokens final tokens = .ok e) : ∃ p : Phrase, p.tokens = tokens.map (·.1) := by
  by_cases hword : ∃ f s rest, tokens = (.word f, s) :: rest
  · obtain ⟨f, s, rest, rfl⟩ := hword
    have hcall : ofCall final (some f) rest = .ok e := h
    obtain ⟨p, hf, htokens⟩ := exists_phrase_of_ofCall hcall
    refine ⟨p, ?_⟩
    rw [Phrase.tokens, hf, htokens]
    rfl
  · rw [ofTokens_of_ne_word final fun f s rest h => hword ⟨f, s, rest, h⟩] at h
    obtain ⟨p, hf, htokens⟩ := exists_phrase_of_ofCall h
    refine ⟨p, ?_⟩
    rw [Phrase.tokens, hf, htokens]
    rfl

/-! ### Texts -/

/-- A text is read as an expression exactly if its tokens are those of a phrase; then there is one
such phrase only, and the expression is what it means.  In other texts there is an error.  Among
them are all without the two parentheses, and those where a comma stands behind something else than
an argument, or an equals sign before something else than a text. -/
theorem parse_iff_phrase {source : String} {tokens : List (Token × Span)}
    (h : tokenize source = .ok tokens) :
    ((∃ e, parse source = .ok e) ↔ ∃ p : Phrase, p.tokens = tokens.map (·.1)) ∧
      (∀ p : Phrase, p.tokens = tokens.map (·.1) →
        parse source = .ok p.expression ∧ ∀ q : Phrase, q.tokens = tokens.map (·.1) → q = p) ∧
      ((∀ p : Phrase, p.tokens ≠ tokens.map (·.1)) →
        ∃ error rest, parse source = .error (error :: rest)) ∧
      ∀ p : Phrase, .parenOpen ∈ p.tokens ∧ .parenClose ∈ p.tokens ∧ p.tokens.IsChain Adjoins := by
  have hparse : parse source =
      (ofTokens (endSpan source tokens) tokens).mapError ([·]) := by
    rw [parse, h]
  have hread : ∀ p : Phrase, p.tokens = tokens.map (·.1) → parse source = .ok p.expression := by
    intro p hp
    have htokens : tokens? source.toList = some p.tokens := by
      rw [← tokens?_tokenize, h, hp]
      rfl
    refine eq_ok_of_toOption ?_
    rw [toOption_parse, htokens, Option.bind_some, ofTokens?_tokens]
  have hphrase : ∀ e, ofTokens (endSpan source tokens) tokens = .ok e →
      ∃ p : Phrase, p.tokens = tokens.map (·.1) :=
    fun e he => exists_phrase_of_ofTokens he
  refine ⟨⟨?_, ?_⟩, fun p hp => ⟨hread p hp, fun q hq => Phrase.tokens_injective (hq.trans hp.symm)⟩,
    fun hnone => ?_, fun p => ⟨?_, ?_, p.isChain_tokens⟩⟩
  · rintro ⟨e, he⟩
    cases hofTokens : ofTokens (endSpan source tokens) tokens with
    | ok e' => exact hphrase e' hofTokens
    | error error =>
        rw [hparse, hofTokens] at he
        cases he
  · rintro ⟨p, hp⟩
    exact ⟨_, hread p hp⟩
  · cases hofTokens : ofTokens (endSpan source tokens) tokens with
    | ok e =>
        obtain ⟨p, hp⟩ := hphrase e hofTokens
        exact absurd hp (hnone p)
    | error error =>
        rw [hparse, hofTokens]
        exact ⟨error, [], rfl⟩
  · simp [Phrase.tokens, Phrase.call]
  · simp [Phrase.tokens, Phrase.call]

/-- The phrase `concat(name, 'x',) -> out silent=false`. -/
def concatPhrase : Phrase where
  function := some "concat"
  arguments := [.text (.word "name"), .text (.singleQuoted "x")]
  comma := true
  target := some "out"
  options := [("silent", some (.word "false"))]
  comma_eq_false := nofun

/-- A call with a comma behind its last argument, a target and an option. -/
theorem parse_iff_phrase_concatPhrase :
    let source := "concat(name, 'x',) -> out silent=false"
    ∃ tokens, tokenize source = .ok tokens ∧ concatPhrase.tokens = tokens.map (·.1) ∧
      parse source = .ok concatPhrase.expression := by
  have htokens : tokens? "concat(name, 'x',) -> out silent=false".toList =
      some concatPhrase.tokens := by
    decide +kernel
  obtain ⟨tokens, hread, hmap⟩ := exists_tokenize htokens
  exact ⟨tokens, hread, hmap.symm, ((parse_iff_phrase hread).2.1 concatPhrase hmap.symm).1⟩

end Expression

end TagTemplate
