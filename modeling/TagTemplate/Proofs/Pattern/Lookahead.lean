import TagTemplate.Pattern.Reader

/-! # How far readers of patterns look ahead

The readers of the notation of patterns stop at the first character that is none of theirs.  A
closing parenthesis behind a text is such a character, unless a comment is open there.

* `Local`: a reader that stops before the end of a text does so too when a closing parenthesis
  stands behind the text; one that stops at the end does so too, or takes the parenthesis for a
  part of a comment.
* `Local.bind`, `Local.skip`: such readers one after another, and behind blank space.
* `local_readEscape`: escapes are read in this way. -/

namespace TagTemplate

namespace Pattern

variable {α β : Type} {f : Flags} {s t u rest : List Char} {n m : Nat}

/-! ### Blank space and comments -/

theorem skipComments_append : ∀ {b : Bool} {s : List Char}, skipComments b s ≠ [] →
    skipComments b (s ++ t) = skipComments b s ++ t
  | _, [], h => absurd rfl h
  | b, c :: s, h => by
      rw [skipComments] at h
      rw [List.cons_append, skipComments, skipComments]
      split
      · next hb =>
        rw [if_pos hb] at h
        exact skipComments_append h
      · next hb =>
        rw [if_neg hb] at h
        split
        · next hspace =>
          rw [if_pos hspace] at h
          exact skipComments_append h
        · next hspace =>
          rw [if_neg hspace] at h
          split
          · next hhash =>
            rw [if_pos hhash] at h
            exact skipComments_append h
          · rfl

/-- A text of which nothing counts ends inside a comment or outside. -/
theorem skipComments_end : ∀ {b : Bool} {s : List Char}, skipComments b s = [] →
    ∃ b', ∀ t, skipComments b (s ++ t) = skipComments b' t
  | b, [], _ => ⟨b, fun _ => rfl⟩
  | b, c :: s, h => by
      rw [skipComments] at h
      simp only [List.cons_append, skipComments]
      split
      · next hb =>
        rw [if_pos hb] at h
        exact skipComments_end h
      · next hb =>
        rw [if_neg hb] at h
        split
        · next hspace =>
          rw [if_pos hspace] at h
          exact skipComments_end h
        · next hspace =>
          rw [if_neg hspace] at h
          split
          · next hhash =>
            rw [if_pos hhash] at h
            exact skipComments_end h
          · next hhash =>
            rw [if_neg hhash] at h
            cases h

theorem skipSpace_nil (f : Flags) : skipSpace f [] = [] := by
  unfold skipSpace
  split <;> rfl

theorem skipSpace_append (h : skipSpace f s ≠ []) : skipSpace f (s ++ t) = skipSpace f s ++ t := by
  unfold skipSpace at *
  split
  · next hx =>
    rw [if_pos hx] at h
    exact skipComments_append h
  · rfl

/-- The parenthesis behind a text of which nothing counts is the next thing that counts, or a part
of a comment. -/
theorem skipSpace_end (h : skipSpace f s = []) :
    (∀ u, skipSpace f (s ++ ')' :: u) = ')' :: u) ∨ skipSpace f (s ++ [')']) = [] := by
  unfold skipSpace at *
  split
  · next hx =>
    rw [if_pos hx] at h
    obtain ⟨b, hb⟩ := skipComments_end h
    cases b with
    | false => exact .inl fun u => hb (')' :: u)
    | true => exact .inr (hb [')'])
  · next hx =>
    rw [if_neg hx] at h
    rw [h]
    exact .inl fun u => rfl

/-! ### Readers that do not look far ahead -/

/-- A reader does the same when a closing parenthesis stands behind a text, apart from an open
comment at the end of the text. -/
structure Local (R : List Char → Option (α × List Char)) : Prop where
  inside {s rest : List Char} {a : α} (h : R s = some (a, rest)) (hne : rest ≠ []) (u : List Char) :
    R (s ++ ')' :: u) = some (a, rest ++ ')' :: u)
  atEnd {s : List Char} {a : α} (h : R s = some (a, [])) :
    (∀ u, R (s ++ ')' :: u) = some (a, ')' :: u)) ∨ R (s ++ [')']) = some (a, [])

/-- A reader that stops does not look at what stands behind the text. -/
structure Prompt (R : List Char → Option (α × List Char)) : Prop where
  append {s rest : List Char} {a : α} (h : R s = some (a, rest)) (u : List Char) :
    R (s ++ ')' :: u) = some (a, rest ++ ')' :: u)

theorem Prompt.local {R : List Char → Option (α × List Char)} (h : Prompt R) : Local R where
  inside hs _ u := h.append hs u
  atEnd hs := .inl fun u => h.append hs u

/-- A reader that does nothing on the empty text. -/
def Grounded (R : List Char → Option (α × List Char)) : Prop :=
  ∀ (a : α) (rest : List Char), R [] = some (a, rest) → rest = []

/-- A reader that goes by the first character. -/
def headed (R : Char → List Char → Option (α × List Char)) : List Char → Option (α × List Char)
  | [] => none
  | c :: s => R c s

namespace Local

variable {R : List Char → Option (α × List Char)}

theorem taken (a : α) : Local fun s => some (a, s) :=
  Prompt.local ⟨fun h u => by cases h; rfl⟩

theorem none : Local fun _ => (Option.none : Option (α × List Char)) :=
  Prompt.local ⟨fun h => by cases h⟩

theorem map (g : α → β) (h : Local R) : Local fun s => (R s).map fun p => (g p.1, p.2) where
  inside hs hne u := by
    obtain ⟨⟨a, rest⟩, hR, heq⟩ := Option.map_eq_some_iff.mp hs
    cases heq
    rw [h.inside hR hne u]
    rfl
  atEnd hs := by
    obtain ⟨⟨a, rest⟩, hR, heq⟩ := Option.map_eq_some_iff.mp hs
    cases heq
    rcases h.atEnd hR with h | h
    · exact .inl fun u => by rw [h u]; rfl
    · exact .inr (by rw [h]; rfl)

theorem filterMap (g : α → Option β) (h : Local R) :
    Local fun s => (R s).bind fun p => (g p.1).map fun b => (b, p.2) where
  inside hs hne u := by
    obtain ⟨⟨a, rest⟩, hR, heq⟩ := Option.bind_eq_some_iff.mp hs
    obtain ⟨b, hb, heq⟩ := Option.map_eq_some_iff.mp heq
    cases heq
    dsimp only at hb
    rw [h.inside hR hne u, Option.bind_some, hb]
    rfl
  atEnd hs := by
    obtain ⟨⟨a, rest⟩, hR, heq⟩ := Option.bind_eq_some_iff.mp hs
    obtain ⟨b, hb, heq⟩ := Option.map_eq_some_iff.mp heq
    cases heq
    dsimp only at hb
    rcases h.atEnd hR with h | h
    · exact .inl fun u => by rw [h u, Option.bind_some, hb]; rfl
    · exact .inr (by rw [h, Option.bind_some, hb]; rfl)

/-- One reader after another, the second of which does nothing at the end. -/
theorem bind {R' : α → List Char → Option (β × List Char)} (h : Local R)
    (h' : ∀ a, Local (R' a)) (hend : ∀ a, Grounded (R' a)) :
    Local fun s => (R s).bind fun p => R' p.1 p.2 where
  inside hs hne u := by
    obtain ⟨⟨a, mid⟩, hR, hR'⟩ := Option.bind_eq_some_iff.mp hs
    have hmid : mid ≠ [] := by
      rintro rfl
      exact hne (hend a _ _ hR')
    rw [h.inside hR hmid u]
    exact (h' a).inside hR' hne u
  atEnd hs := by
    obtain ⟨⟨a, mid⟩, hR, hR'⟩ := Option.bind_eq_some_iff.mp hs
    by_cases hmid : mid = []
    · subst hmid
      rcases h.atEnd hR with h | h
      · rcases (h' a).atEnd hR' with h' | h'
        · exact .inl fun u => by rw [h u]; exact h' u
        · exact .inr (by rw [h []]; exact h')
      · exact .inr (by rw [h]; exact hR')
    · rcases (h' a).atEnd hR' with h' | h'
      · exact .inl fun u => by rw [h.inside hR hmid u]; exact h' u
      · exact .inr (by rw [h.inside hR hmid []]; exact h')

theorem skip (f : Flags) (h : Local R) (hend : Grounded R) : Local fun s => R (skipSpace f s) where
  inside {s} _ _ hs hne u := by
    have hskip : skipSpace f s ≠ [] := by
      intro heq
      rw [heq] at hs
      exact hne (hend _ _ hs)
    rw [skipSpace_append hskip]
    exact h.inside hs hne u
  atEnd {s} _ hs := by
    by_cases hskip : skipSpace f s = []
    · rw [hskip] at hs
      rcases skipSpace_end hskip with hnext | hnext
      · simp only [hnext]
        exact h.atEnd hs
      · rw [hnext]
        exact .inr hs
    · simp only [skipSpace_append hskip]
      exact h.atEnd hs

theorem of_eq {R' : List Char → Option (α × List Char)} (h : Local R) (heq : ∀ s, R' s = R s) :
    Local R' :=
  (funext heq : R' = R) ▸ h

theorem after (c : Char) (h : Local R) : Local fun s => R (c :: s) where
  inside hs hne u := h.inside hs hne u
  atEnd hs := h.atEnd hs

theorem headed {R : Char → List Char → Option (α × List Char)} (h : ∀ c, Local (R c)) :
    Local (headed R) where
  inside {s} _ _ hs hne u := by
    cases s with
    | nil => cases hs
    | cons c s => exact (h c).inside hs hne u
  atEnd {s} _ hs := by
    cases s with
    | nil => cases hs
    | cons c s => exact (h c).atEnd hs

end Local

/-- A reader for what stands behind an opening brace, and one for all else. -/
def forked (R R' : List Char → Option (α × List Char)) : List Char → Option (α × List Char) :=
  headed fun c s => if c = '\x7b' then R s else R' (c :: s)

theorem Local.forked {R R' : List Char → Option (α × List Char)} (h : Local R) (h' : Local R') :
    Local (forked R R') := by
  refine Local.headed fun c => ?_
  split
  · exact h
  · exact h'.after c

theorem grounded_forked (R R' : List Char → Option (α × List Char)) : Grounded (forked R R') :=
  fun _ _ h => by cases h

theorem forked_of_ne {R R' : List Char → Option (α × List Char)} {c : Char} (hc : c ≠ '\x7b')
    (s : List Char) : forked R R' (c :: s) = R' (c :: s) :=
  if_neg hc

/-! ### Escapes -/

theorem local_readHexDigits (f : Flags) : ∀ n, Local (readHexDigits f n) ∧
    Grounded (readHexDigits f n)
  | 0 => ⟨.taken [], fun _ _ h => by cases h; rfl⟩
  | n + 1 => by
      obtain ⟨hlocal, hend⟩ := local_readHexDigits f n
      let digit (c : Char) (s : List Char) : Option (List Char × List Char) :=
        if (Text.hexDigit? c).isSome then
          (readHexDigits f n (skipSpace f s)).map fun p => (c :: p.1, p.2)
        else none
      have hdigit (c : Char) : Local (digit c) := by
        simp only [digit]
        split
        · exact (hlocal.skip f hend).map _
        · exact .none
      refine ⟨(Local.headed hdigit).of_eq fun s => ?_, fun _ _ h => by cases h⟩
      cases s <;> rfl

theorem readHexDigits_nil {count : Nat} (h : count ≠ 0) : readHexDigits f count [] = none := by
  obtain ⟨n, rfl⟩ := Nat.exists_eq_succ_of_ne_zero h
  rfl

theorem readToBrace_append {ds : List Char} (h : readToBrace f n s = some (ds, rest))
    (hnm : n ≤ m) : readToBrace f m (s ++ t) = some (ds, rest ++ t) := by
  induction n generalizing m s ds with
  | zero => cases h
  | succ n ih =>
      obtain ⟨m, rfl⟩ : ∃ k, m = k + 1 := ⟨m - 1, by omega⟩
      cases s with
      | nil => cases h
      | cons c s =>
          rw [readToBrace] at h
          rw [List.cons_append, readToBrace]
          split
          · next hc =>
            rw [if_pos hc] at h
            cases h
            rfl
          · next hc =>
            rw [if_neg hc] at h
            obtain ⟨⟨ds, _⟩, hread, heq⟩ := Option.map_eq_some_iff.mp h
            cases heq
            have hskip : skipSpace f s ≠ [] := by
              intro heq
              rw [heq] at hread
              cases n <;> cases hread
            rw [skipSpace_append hskip, ih hread (Nat.le_of_succ_le_succ hnm)]
            rfl

theorem readToBrace_skip_append {ds : List Char}
    (h : readToBrace f s.length (skipSpace f s) = some (ds, rest)) :
    readToBrace f (s ++ t).length (skipSpace f (s ++ t)) = some (ds, rest ++ t) := by
  have hskip : skipSpace f s ≠ [] := by
    intro heq
    rw [heq] at h
    cases hs : s.length <;> rw [hs] at h <;> cases h
  rw [skipSpace_append hskip]
  exact readToBrace_append h (by rw [List.length_append]; omega)

theorem prompt_readToBrace (f : Flags) :
    Prompt fun s => readToBrace f s.length (skipSpace f s) :=
  ⟨fun h _ => readToBrace_skip_append h⟩

/-- The character of hexadecimal digits. -/
def hexChar? (ds : List Char) : Option Char :=
  (Text.hexValue? ds).bind Text.charOf?

/-- The character of the digits that stood between braces, and blank space behind them. -/
def finishHex (f : Flags) (ds s : List Char) : Option (Escaped × List Char) :=
  if ds = [] then none else (hexChar? ds).map fun c => (.literal c, skipSpace f s)

/-- A character by its digits between braces, behind the opening one. -/
def readHexBraced (f : Flags) (s : List Char) : Option (Escaped × List Char) :=
  (readToBrace f s.length (skipSpace f s)).bind fun p => finishHex f p.1 p.2

/-- The number of digits that follow a letter where there are no braces. -/
def hexCount (letter : Char) : Nat :=
  if letter = 'x' then 2 else if letter = 'u' then 4 else 8

/-- What the digits behind a letter stand for. -/
def ofHex? (letter : Char) (ds : List Char) : Option Escaped :=
  (hexChar? ds).map fun c => if letter = 'x' then .byte c.toNat else .literal c

/-- A character by as many digits as belong to the letter. -/
def readHexPlain (f : Flags) (letter : Char) (s : List Char) : Option (Escaped × List Char) :=
  (readHexDigits f (hexCount letter) s).bind fun p => (ofHex? letter p.1).map fun e => (e, p.2)

theorem hexCount_ne_zero (letter : Char) : hexCount letter ≠ 0 := by
  unfold hexCount
  split
  · decide
  · split <;> decide

theorem readHex_eq (f : Flags) (letter : Char) (s : List Char) :
    readHex f letter s = forked (readHexBraced f) (readHexPlain f letter) (skipSpace f s) := by
  rw [readHex]
  split
  · next s' heq =>
    rw [heq]
    show _ = readHexBraced f s'
    unfold readHexBraced
    cases readToBrace f s'.length (skipSpace f s') <;> rfl
  · next hne =>
    have hplain : forked (readHexBraced f) (readHexPlain f letter) (skipSpace f s) =
        readHexPlain f letter (skipSpace f s) := by
      cases heq : skipSpace f s with
      | nil =>
          rw [readHexPlain, readHexDigits_nil (hexCount_ne_zero letter)]
          rfl
      | cons c s' => exact forked_of_ne (fun hc => hne s' (by rw [heq, hc])) s'
    rw [hplain, readHexPlain, hexCount]
    dsimp only
    cases readHexDigits f _ (skipSpace f s) with
    | none => rfl
    | some p =>
        simp only [ofHex?, hexChar?, Option.bind_some, Option.map_map, Function.comp_def]

theorem local_finishHex (f : Flags) (ds : List Char) : Local (finishHex f ds) := by
  unfold finishHex
  split
  · exact .none
  · cases hexChar? ds with
    | none => exact .none
    | some c => exact .skip f (.taken _) fun _ _ h => by cases h; rfl

theorem grounded_finishHex (f : Flags) (ds : List Char) : Grounded (finishHex f ds) := by
  intro e rest h
  unfold finishHex at h
  split at h
  · cases h
  · obtain ⟨c, _, heq⟩ := Option.map_eq_some_iff.mp h
    cases heq
    exact skipSpace_nil f

theorem local_readHex (f : Flags) (letter : Char) : Local (readHex f letter) := by
  have hbraced : Local (readHexBraced f) :=
    (prompt_readToBrace f).local.bind (local_finishHex f) (grounded_finishHex f)
  have hplain : Local (readHexPlain f letter) :=
    (local_readHexDigits f (hexCount letter)).1.filterMap (ofHex? letter)
  exact ((hbraced.forked hplain).skip f (grounded_forked _ _)).of_eq (readHex_eq f letter)

theorem readBoundary_append {c : Char} {e : Escaped}
    (h : readBoundary f (c :: s) = some (e, rest)) :
    readBoundary f (c :: (s ++ t)) = some (e, rest ++ t) := by
  by_cases hc : c = '\x7b'
  · subst hc
    simp only [readBoundary] at *
    have hskip : skipSpace f s ≠ [] := by
      intro heq
      rw [heq] at h
      cases h
    rw [skipSpace_append hskip]
    obtain ⟨c, r, hr⟩ := List.exists_cons_of_ne_nil hskip
    rw [hr] at h ⊢
    dsimp only [List.cons_append] at *
    split
    · next hname =>
      rw [if_pos hname] at h
      split at h
      · next name rest' hread =>
        obtain ⟨p, hp, heq⟩ := Option.map_eq_some_iff.mp h
        cases heq
        rw [← List.cons_append, readToBrace_append hread (by rw [List.length_append]; omega)]
        dsimp only
        rw [hp]
        rfl
      · cases h
    · next hname =>
      rw [if_neg hname] at h
      cases h
      rfl
  · have hplain (l : List Char) :
        readBoundary f (c :: l) = some (.place (.boundary (!f.unicode)), c :: l) := by
      unfold readBoundary
      split
      · next heq =>
        cases heq
        exact absurd rfl hc
      · rfl
    rw [hplain] at h ⊢
    cases h
    rfl

theorem local_readBoundary (f : Flags) : Local (readBoundary f) := by
  refine Prompt.local ⟨fun {s _ _} h u => ?_⟩
  cases s with
  | nil =>
      cases h
      rfl
  | cons c s => exact readBoundary_append h

def property? (negated : Bool) (name : List Char) : Option Escaped :=
  (propertyOfName? name).map fun cs => .set cs negated

/-- A property by its name between braces, behind the opening one. -/
def readPropertyBraced (f : Flags) (negated : Bool) (s : List Char) :
    Option (Escaped × List Char) :=
  (readToBrace f s.length (skipSpace f s)).bind fun p =>
    (property? negated p.1).map fun e => (e, p.2)

def readPropertyPlain (negated : Bool) : List Char → Option (Escaped × List Char) :=
  headed fun c s => (property? negated [c]).map fun e => (e, s)

theorem readProperty_eq (f : Flags) (negated : Bool) (s : List Char) :
    readProperty f negated s =
      forked (readPropertyBraced f negated) (readPropertyPlain negated) (skipSpace f s) := by
  rw [readProperty]
  split
  · next s' heq =>
    rw [heq]
    show _ = readPropertyBraced f negated s'
    unfold readPropertyBraced property?
    cases readToBrace f s'.length (skipSpace f s') with
    | none => rfl
    | some p => simp only [Option.bind_some, Option.map_map, Function.comp_def]
  · next c s' hne heq =>
    rw [heq, forked_of_ne hne]
    simp only [readPropertyPlain, headed, property?, Option.map_map, Function.comp_def]
  · next heq =>
    rw [heq]
    rfl

theorem local_readProperty (f : Flags) (negated : Bool) : Local (readProperty f negated) := by
  have hbraced : Local (readPropertyBraced f negated) :=
    (prompt_readToBrace f).local.filterMap (property? negated)
  have hplain : Local (readPropertyPlain negated) := by
    refine Local.headed fun c => ?_
    cases property? negated [c] with
    | none => exact .none
    | some e => exact .taken e
  exact ((hbraced.forked hplain).skip f (grounded_forked _ _)).of_eq (readProperty_eq f negated)

theorem local_readEscape (f : Flags) : Local (readEscape f) := by
  have hescape (c : Char) : Local fun s => readEscape f (c :: s) := by
    unfold readEscape
    dsimp only
    split
    · exact local_readHex f _
    · exact local_readHex f _
    · exact local_readHex f _
    all_goals first
      | exact local_readProperty f _
      | exact local_readBoundary f
      | exact .taken _
      | skip
    split
    · exact .taken _
    · exact .none
  refine (Local.headed hescape).of_eq fun s => ?_
  cases s <;> rfl

end Pattern

end TagTemplate
