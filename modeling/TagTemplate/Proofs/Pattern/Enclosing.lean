import TagTemplate.Proofs.Pattern.Brackets
import TagTemplate.Proofs.Pattern.Signs

/-! # Patterns inside groups

A pattern is read alone before its text is put into a group of a larger pattern.  The reader sees
of the text around it at most whether a comment that it opened has come to its end.

* `local_readSign`: a sign of a pattern is read in the same way when a closing parenthesis stands
  behind the text, apart from an open comment.
* `read_enclosed`: a text read as a pattern alone is read as the same pattern inside a group, if
  with a closing parenthesis behind it it cannot be read alone. -/

namespace TagTemplate

namespace Pattern

variable {f : Flags} {s t u rest : List Char} {n m : Nat}

/-! ### Groups and repetitions -/

theorem prompt_readName : Prompt readName := by
  refine ⟨fun {s rest name} h u => ?_⟩
  rw [readName] at h ⊢
  have hend : s.dropWhile (· ≠ '>') ≠ [] := by
    intro heq
    dsimp only at h
    rw [heq] at h
    cases htake : s.takeWhile (· ≠ '>') <;> rw [htake] at h <;> cases h
  dsimp only at h ⊢
  rw [dropWhile_append hend, takeWhile_append hend]
  obtain ⟨z, r, hr⟩ := List.exists_cons_of_ne_nil hend
  rw [hr] at h ⊢
  revert h
  cases s.takeWhile (· ≠ '>') with
  | nil => exact fun h => by cases h
  | cons first others =>
      dsimp only [List.cons_append]
      split
      · intro h
        cases h
        rfl
      · exact fun h => by cases h

theorem readFlags_append {used : List Char} {x : Flags × List Char × List Char}
    (h : readFlags f used s = some x) :
    readFlags f used (s ++ t) = some (x.1, x.2.1, x.2.2 ++ t) := by
  induction s generalizing f used with
  | nil => cases h
  | cons c s ih =>
      rw [List.cons_append, readFlags]
      rw [readFlags] at h
      revert h
      split
      · split
        · exact fun h => by cases h
        · intro h
          cases h
          rfl
      · split
        · exact fun h => by cases h
        · split
          · exact ih
          · split
            · exact ih
            · exact fun h => by cases h

/-- What flags begin that have been read up to a colon or a closing parenthesis. -/
def flagGroup (f : Flags) (used : List Char) : List Char → Option (GroupStart × List Char)
  | [] => none
  | c :: s =>
    if c = ')' then if used = [] then none else some (.flags f, s) else some (.group none f, s)

theorem prompt_flagGroup (f : Flags) (used : List Char) : Prompt (flagGroup f used) := by
  refine ⟨fun {s rest start} h u => ?_⟩
  cases s with
  | nil => cases h
  | cons c s =>
      rw [flagGroup] at h
      rw [List.cons_append, flagGroup]
      revert h
      split
      · split
        · exact fun h => by cases h
        · intro h
          cases h
          rfl
      · intro h
        cases h
        rfl

/-- The beginning of a group, behind blank space. -/
def readOpening (f : Flags) (s : List Char) : Option (GroupStart × List Char) :=
  match s with
  | '?' :: 'P' :: '<' :: s => (readName s).map fun p => (.group (some p.1) f, p.2)
  | '?' :: '<' :: s =>
    if s.head? = some '=' ∨ s.head? = some '!' then none
    else (readName s).map fun p => (.group (some p.1) f, p.2)
  | '?' :: s => (readFlags f [] s).bind fun x => flagGroup x.1 x.2.1 x.2.2
  | s => some (.group none f, s)

theorem readOpening_plain (h : s.head? ≠ some '?') :
    readOpening f s = some (.group none f, s) := by
  unfold readOpening
  split <;> first | rfl | exact absurd rfl h

theorem readOpening_flags (hname : ¬ ['P', '<'] <+: s) (hangle : s.head? ≠ some '<') :
    readOpening f ('?' :: s) = (readFlags f [] s).bind fun x => flagGroup x.1 x.2.1 x.2.2 := by
  unfold readOpening
  split
  · next heq =>
    cases heq
    exact absurd (List.prefix_append ['P', '<'] _) hname
  · next heq =>
    cases heq
    exact absurd rfl hangle
  · next heq =>
    cases heq
    rfl
  · next hmark =>
    exact absurd rfl (hmark s)

theorem readGroupStart_eq (f : Flags) (s : List Char) :
    readGroupStart f s = readOpening f (skipSpace f s) := by
  unfold readGroupStart
  generalize skipSpace f s = l
  split
  · rfl
  · rfl
  · next s hname hangle =>
    rw [readOpening_flags]
    · cases readFlags f [] s with
      | none => rfl
      | some x =>
          obtain ⟨f', used, r⟩ := x
          cases r with
          | nil => rfl
          | cons c r =>
              by_cases hc : c = ')'
              · subst hc
                rfl
              · simp only [Option.bind_some, flagGroup, if_neg hc]
    · rintro ⟨r, rfl⟩
      exact hname r rfl
    · intro hhead
      obtain ⟨r, rfl⟩ := List.head?_eq_some_iff.mp hhead
      exact hangle r rfl
  · next hmark =>
    rw [readOpening_plain]
    intro hhead
    obtain ⟨r, rfl⟩ := List.head?_eq_some_iff.mp hhead
    exact hmark r rfl

theorem head?_append_ne {c : Char} (h : s.head? ≠ some c) (hc : c ≠ ')') (u : List Char) :
    (s ++ ')' :: u).head? ≠ some c := by
  cases s with
  | nil =>
      intro heq
      exact hc (Option.some.inj heq).symm
  | cons d s => exact h

theorem not_prefix_append (h : ¬ ['P', '<'] <+: s) (u : List Char) :
    ¬ ['P', '<'] <+: s ++ ')' :: u := by
  rintro ⟨r, hr⟩
  rcases s with _ | ⟨c, _ | ⟨d, s⟩⟩
  · cases hr
  · cases hr
  · cases hr
    exact h (List.prefix_append ['P', '<'] s)

theorem prompt_readOpening (f : Flags) : Prompt (readOpening f) := by
  refine ⟨fun {s rest start} h u => ?_⟩
  have hnamed {s : List Char} (h : (readName s).map (fun p => (GroupStart.group (some p.1) f, p.2)) =
      some (start, rest)) : (readName (s ++ ')' :: u)).map
        (fun p => (GroupStart.group (some p.1) f, p.2)) = some (start, rest ++ ')' :: u) := by
    obtain ⟨p, hp, heq⟩ := Option.map_eq_some_iff.mp h
    cases heq
    rw [prompt_readName.append hp u]
    rfl
  by_cases hmark : s.head? = some '?'
  · obtain ⟨s, rfl⟩ := List.head?_eq_some_iff.mp hmark
    by_cases hname : ['P', '<'] <+: s
    · obtain ⟨s, rfl⟩ := hname
      exact hnamed h
    · by_cases hangle : s.head? = some '<'
      · obtain ⟨s, rfl⟩ := List.head?_eq_some_iff.mp hangle
        have hopen (s : List Char) : readOpening f ('?' :: '<' :: s) =
            if s.head? = some '=' ∨ s.head? = some '!' then none
            else (readName s).map fun p => (.group (some p.1) f, p.2) := rfl
        rw [hopen] at h
        rw [List.cons_append, List.cons_append, hopen]
        by_cases hlook : s.head? = some '=' ∨ s.head? = some '!'
        · rw [if_pos hlook] at h
          cases h
        · rw [if_neg hlook] at h
          obtain ⟨h₁, h₂⟩ := not_or.mp hlook
          rw [if_neg (not_or.mpr ⟨head?_append_ne h₁ (by decide) u,
            head?_append_ne h₂ (by decide) u⟩)]
          exact hnamed h
      · rw [readOpening_flags hname hangle] at h
        rw [List.cons_append, readOpening_flags (not_prefix_append hname u)
          (head?_append_ne hangle (by decide) u)]
        obtain ⟨x, hx, hgroup⟩ := Option.bind_eq_some_iff.mp h
        rw [readFlags_append hx]
        exact (prompt_flagGroup x.1 x.2.1).append hgroup u
  · rw [readOpening_plain hmark] at h
    cases h
    exact readOpening_plain (head?_append_ne hmark (by decide) u)

theorem grounded_readOpening (f : Flags) : Grounded (readOpening f) := by
  intro _ _ h
  cases h
  rfl

theorem local_readGroupStart (f : Flags) : Local (readGroupStart f) :=
  ((prompt_readOpening f).local.skip f (grounded_readOpening f)).of_eq
    (readGroupStart_eq f)

theorem readBound_append {bound : Option Nat} (h : readBound f s = some (bound, rest))
    (hne : rest ≠ []) (u : List Char) :
    readBound f (s ++ ')' :: u) = some (bound, rest ++ ')' :: u) := by
  rw [readBound] at h ⊢
  have hrest : (skipSpace f ((s.dropWhile Text.isWhiteSpace).dropWhile Char.isDigit)).dropWhile
      Text.isWhiteSpace = rest := by
    revert h
    split
    · intro h
      exact congrArg Prod.snd (Option.some.inj h)
    · split
      · intro h
        exact congrArg Prod.snd (Option.some.inj h)
      · exact fun h => by cases h
  have hskip : skipSpace f ((s.dropWhile Text.isWhiteSpace).dropWhile Char.isDigit) ≠ [] := by
    intro heq
    rw [heq] at hrest
    exact hne hrest.symm
  have hdigits : (s.dropWhile Text.isWhiteSpace).dropWhile Char.isDigit ≠ [] := by
    intro heq
    rw [heq] at hskip
    exact hskip (skipSpace_nil f)
  have hspace : s.dropWhile Text.isWhiteSpace ≠ [] := by
    intro heq
    rw [heq] at hdigits
    exact hdigits rfl
  rw [← hrest] at hne
  rw [dropWhile_append hspace, takeWhile_append hdigits, dropWhile_append hdigits,
    skipSpace_append hskip, dropWhile_append hne, hrest]
  rw [hrest] at h
  revert h
  split
  · intro h
    cases h
    rfl
  · split
    · intro h
      cases h
      rfl
    · exact fun h => by cases h

theorem readBound_nil (f : Flags) : readBound f [] = some (none, []) := by
  unfold readBound
  simp only [List.dropWhile_nil, List.takeWhile_nil, skipSpace_nil, if_true]

theorem readBound_skip_append {bound : Nat} {c : Char}
    (h : readBound f (skipSpace f s) = some (some bound, c :: rest)) (u : List Char) :
    readBound f (skipSpace f (s ++ ')' :: u)) = some (some bound, c :: (rest ++ ')' :: u)) := by
  have hskip : skipSpace f s ≠ [] := by
    intro heq
    rw [heq, readBound_nil] at h
    cases h
  rw [skipSpace_append hskip]
  exact readBound_append h (List.cons_ne_nil c rest) u

theorem prompt_readBounds (f : Flags) : Prompt (readBounds f) := by
  refine ⟨fun {s rest bounds} h u => ?_⟩
  unfold readBounds at h ⊢
  split at h
  · next least r hbound =>
    cases h
    rw [readBound_skip_append hbound u]
    rfl
  · next least r hbound =>
    rw [readBound_skip_append hbound u]
    simp only at h ⊢
    have hskip : skipSpace f r ≠ [] := by
      intro heq
      rw [heq] at h
      simp only [readBound_nil] at h
      cases h
    rw [skipSpace_append hskip]
    split at h
    · next heq =>
      cases h
      rw [heq]
      rfl
    · next hbrace =>
      split at h
      · next most r' hupper =>
        split at h
        · next hle =>
          cases h
          have hupper := readBound_append hupper (List.cons_ne_nil _ _) u
          obtain ⟨c, l, hl⟩ := List.exists_cons_of_ne_nil hskip
          rw [hl, List.cons_append] at hupper ⊢
          split
          · next heq =>
            cases heq
            exact absurd hl (hbrace l)
          · rw [hupper]
            exact if_pos hle
        · cases h
      · cases h
  · cases h

theorem local_readRepetition (f : Flags) (least : Nat) (most : Option Nat) :
    Local (fun s => some (readRepetition f least most s)) ∧
      Grounded fun s => some (readRepetition f least most s) := by
  have hplain (c : Char) (s : List Char) (hc : c ≠ '?') : readRepetition f least most (c :: s) =
      (.repetition (!f.swapGreed) least most, c :: s) := by
    rw [readRepetition, readGreed]
    intro _ heq
    exact hc (List.cons.inj heq).1
  refine ⟨Prompt.local ⟨fun {s rest a} h u => ?_⟩, fun _ _ h => by cases h; rfl⟩
  cases s with
  | nil =>
      cases h
      exact congrArg some (hplain ')' u (by decide))
  | cons c s =>
      by_cases hc : c = '?'
      · subst hc
        cases h
        rfl
      · rw [hplain c s hc] at h
        cases h
        exact congrArg some (hplain c _ hc)

/-! ### Signs -/

theorem local_readClass (f : Flags) (n : Nat) (o : OpenClass) :
    Local (fun s => (readClass f n o [] s).map fun p => (Sign.pattern (.char p.1), p.2)) ∧
      Grounded fun s => (readClass f n o [] s).map fun p => (Sign.pattern (.char p.1), p.2) := by
  have hread : Prompt (readClass f n o []) := ⟨fun h u => readClass_append h u⟩
  refine ⟨hread.local.map fun cs => Sign.pattern (.char cs), fun a rest h => ?_⟩
  simp only [readClass_nil] at h
  cases h

theorem local_readBrackets (n : Nat) (f : Flags) : Local fun s => (openClass f s).bind fun o =>
    (readClass f n o.1 [] o.2).map fun p => (Sign.pattern (.char p.1), p.2) :=
  (Prompt.local ⟨fun h _ => openClass_append h⟩).bind (fun o => (local_readClass f n o).1)
    fun o => (local_readClass f n o).2

/-- Bounds in braces with the greed of the repetition behind them. -/
theorem local_readBraces (f : Flags) : Local fun s => (readBounds f s).map fun p =>
    readRepetition f p.1.1 p.1.2 (skipSpace f p.2) := by
  have hrest (b : Nat × Option Nat) :
      Local fun s => some (readRepetition f b.1 b.2 (skipSpace f s)) :=
    (local_readRepetition f b.1 b.2).1.skip f (local_readRepetition f b.1 b.2).2
  have hend (b : Nat × Option Nat) :
      Grounded fun s => some (readRepetition f b.1 b.2 (skipSpace f s)) := by
    intro a rest h
    simp only [skipSpace_nil] at h
    exact (local_readRepetition f b.1 b.2).2 a rest h
  refine ((prompt_readBounds f).local.bind hrest hend).of_eq fun s => ?_
  cases readBounds f s <;> rfl

theorem local_readEscapedPattern (f : Flags) : Local fun s => (readEscape f s).bind fun p =>
    ((escapedPattern? f p.1).map Sign.pattern).map fun x => (x, p.2) :=
  (local_readEscape f).filterMap fun e => (escapedPattern? f e).map Sign.pattern

theorem local_readSign (n : Nat) (f : Flags) (c : Char) : Local (readSign n f c) := by
  unfold readSign
  split
  · exact (local_readGroupStart f).map _
  · exact .taken _
  · exact .taken _
  · exact local_readBrackets n f
  · exact (local_readRepetition f _ _).1
  · exact (local_readRepetition f _ _).1
  · exact (local_readRepetition f _ _).1
  · exact local_readBraces f
  · refine (local_readEscapedPattern f).of_eq fun s => ?_
    cases readEscape f s with
    | none => rfl
    | some p =>
        simp only [Option.bind_some, Option.map_map]
        rfl
  · split
    · exact .taken _
    · exact .none
  · exact .taken _
  · exact .taken _
  · exact .taken _

theorem readSign_mono {c : Char} {x : Sign × List Char} (h : readSign n f c s = some x)
    (hnm : n ≤ m) : readSign m f c s = some x := by
  by_cases hc : c = '['
  · subst hc
    obtain ⟨o, ho, hread⟩ := Option.bind_eq_some_iff.mp h
    obtain ⟨p, hp, hx⟩ := Option.map_eq_some_iff.mp hread
    refine Option.bind_eq_some_iff.mpr ⟨o, ho, Option.map_eq_some_iff.mpr ⟨p, ?_, hx⟩⟩
    exact readClass_mono hp hnm
  · rw [← h]
    unfold readSign
    split <;> first | rfl | exact absurd rfl hc

theorem Pending.read_mono {st : Pending} {p : Pattern} (h : st.read n s = some p) (hnm : n ≤ m) :
    st.read m s = some p := by
  induction n generalizing m st s with
  | zero => cases h
  | succ n ih =>
      obtain ⟨m, rfl⟩ : ∃ k, m = k + 1 := ⟨m - 1, by omega⟩
      rw [read_succ] at h ⊢
      revert h
      split
      · exact id
      · intro h
        obtain ⟨x, hx, h⟩ := Option.bind_eq_some_iff.mp h
        obtain ⟨st', hst', h⟩ := Option.bind_eq_some_iff.mp h
        have hnm := Nat.le_of_succ_le_succ hnm
        rw [readSign_mono hx hnm, Option.bind_some, hst', Option.bind_some]
        exact ih h hnm

/-- A sign that is read and carried out leaves the rest to be read. -/
theorem Pending.read_sign {st st' : Pending} {c : Char} {s' : List Char} {sign : Sign}
    (hs : skipSpace st.flags s = c :: s') (hsign : readSign n st.flags c s' = some (sign, rest))
    (hst : sign.perform? st = some st') (hnm : n ≤ m) : st.read (m + 1) s = st'.read m rest := by
  rw [read_succ, hs]
  dsimp only
  rw [readSign_mono hsign hnm, Option.bind_some, hst, Option.bind_some]

/-- The text reads as the pattern also with a closing parenthesis behind it, which is taken for a
part of a comment then. -/
def Pending.Swallows (st : Pending) (n : Nat) (s : List Char) (p : Pattern) : Prop :=
  ∀ k, n ≤ k → st.read k (s ++ [')']) = some p

/-- What a sign leaves to be read swallows the parenthesis, and so does the whole text. -/
theorem Pending.Swallows.of_sign {st st' : Pending} {c : Char} {s' : List Char} {sign : Sign}
    {p : Pattern} (h : st'.Swallows n rest p) (hs : skipSpace st.flags (s ++ [')']) = c :: s')
    (hsign : readSign n st.flags c s' = some (sign, rest ++ [')']))
    (hst : sign.perform? st = some st') : st.Swallows (n + 1) s p := by
  intro k hk
  obtain ⟨k, rfl⟩ : ∃ k', k = k' + 1 := ⟨k - 1, by omega⟩
  have hk := Nat.le_of_succ_le_succ hk
  rw [read_sign hs hsign hst hk]
  exact h k hk

/-! ### Groups around a pattern -/

/-- A group that a pattern is put into: its name, the flags around it and the groups around it, the
nearest first. -/
structure Frame where
  name : Option String
  flags : Flags
  parent : OpenGroup
  outer : List OpenGroup

namespace Frame

variable (w : Frame)

/-- A group of a pattern that has been put into another group.  The outermost one has become that
group. -/
def inner (outer : List OpenGroup) (g : OpenGroup) : OpenGroup :=
  match outer with
  | [] => { g with name := w.name, outer := w.flags }
  | _ :: _ => g

/-- The groups around a group of the pattern. -/
def around : List OpenGroup → List OpenGroup
  | [] => w.parent :: w.outer
  | g :: outer => w.inner outer g :: around outer

/-- What the reader keeps, inside the group. -/
def enclose (names : List String) (st : Pending) : Pending :=
  ⟨st.flags, names, w.inner st.outer st.group, w.around st.outer⟩

/-- What the reader keeps once the group has been closed. -/
def leave (names : List String) (p : Pattern) : Pending :=
  let closed := match w.name with
    | none => p
    | some name => .group name p
  ⟨w.flags, names, w.parent.add closed, w.outer⟩

variable {w}

theorem inner_add (outer : List OpenGroup) (g : OpenGroup) (p : Pattern) :
    w.inner outer (g.add p) = (w.inner outer g).add p := by
  cases outer <;> rfl

theorem inner_repeatLast? (outer : List OpenGroup) (g : OpenGroup) (greedy : Bool) (least : Nat)
    (most : Option Nat) : (w.inner outer g).repeatLast? greedy least most =
      (g.repeatLast? greedy least most).map (w.inner outer) := by
  cases outer with
  | nil =>
      unfold OpenGroup.repeatLast? inner
      dsimp only
      split
      · split <;> rfl
      · rfl
  | cons h outer =>
      have hid : w.inner (h :: outer) = id := rfl
      rw [hid, Option.map_id]
      rfl

/-- A sign does inside the group what it does to the pattern alone. -/
theorem perform_enclose {sign : Sign} {st st' x : Pending} {names : List String}
    (h : sign.perform? st = some st') (hx : sign.perform? (w.enclose names st) = some x) :
    ∃ names', x = w.enclose names' st' := by
  obtain ⟨f, names₀, g, outer⟩ := st
  cases sign with
  | flags f' =>
      cases h
      cases hx
      exact ⟨names, by cases outer <;> rfl⟩
  | opening name f' =>
      cases name with
      | none =>
          cases h
          cases hx
          exact ⟨names, rfl⟩
      | some name =>
          obtain ⟨_, heq⟩ := Option.ite_none_left_eq_some.mp h
          cases heq
          obtain ⟨_, heq⟩ := Option.ite_none_left_eq_some.mp hx
          cases heq
          exact ⟨name :: names, rfl⟩
  | closing =>
      cases outer with
      | nil => cases h
      | cons g' outer =>
          cases h
          cases hx
          refine ⟨names, ?_⟩
          simp only [enclose, inner_add]
          rfl
  | bar =>
      cases h
      cases hx
      exact ⟨names, by cases outer <;> rfl⟩
  | repetition greedy least most =>
      obtain ⟨g', hg', heq⟩ := Option.map_eq_some_iff.mp h
      cases heq
      obtain ⟨g'', hg'', heq⟩ := Option.map_eq_some_iff.mp hx
      cases heq
      dsimp only [enclose] at hg' hg''
      rw [inner_repeatLast?, hg'] at hg''
      cases hg''
      exact ⟨names, rfl⟩
  | pattern p =>
      cases h
      cases hx
      exact ⟨names, by simp only [enclose, inner_add]⟩

theorem perform_closing {st x : Pending} {names : List String} {p : Pattern}
    (h : st.finish? = some p) (hx : Sign.closing.perform? (w.enclose names st) = some x) :
    x = w.leave names p := by
  obtain ⟨f, names₀, g, outer⟩ := st
  cases outer with
  | nil =>
      cases h
      cases hx
      obtain ⟨name, _, _, _⟩ := w
      cases name <;> rfl
  | cons g' outer => cases h

/-- Where the pattern alone is at its end, the closing parenthesis is the next sign, or stands in an
open comment. -/
theorem read_enclosed_end {st : Pending} {p q : Pattern} {names : List String}
    (hskip : skipSpace st.flags s = []) (h : st.finish? = some p)
    (hx : (w.enclose names st).read (m + 1) (s ++ ')' :: u) = some q) :
    st.Swallows (n + 1) s p ∨ ∃ k names', (w.leave names' p).read k u = some q := by
  have hflags : (w.enclose names st).flags = st.flags := rfl
  rcases skipSpace_end hskip with hnext | hnext
  · rw [read_succ, hflags, hnext] at hx
    obtain ⟨_, heq, hx⟩ := Option.bind_eq_some_iff.mp hx
    cases heq
    obtain ⟨st', hst', hx⟩ := Option.bind_eq_some_iff.mp hx
    rw [perform_closing h hst'] at hx
    exact .inr ⟨m, names, hx⟩
  · refine .inl fun k hk => ?_
    obtain ⟨k, rfl⟩ : ∃ k', k = k' + 1 := ⟨k - 1, by omega⟩
    rw [read_succ, hnext]
    exact h

/-- Inside a group a text is read as the pattern it is alone, unless it takes the closing
parenthesis for a part of a comment. -/
theorem read_enclosed {st : Pending} {p q : Pattern} {names : List String}
    (h : st.read n s = some p) (hnm : n ≤ m)
    (hx : (w.enclose names st).read m (s ++ ')' :: u) = some q) :
    st.Swallows n s p ∨ ∃ k names', (w.leave names' p).read k u = some q := by
  induction n generalizing m st s names with
  | zero => cases h
  | succ n ih =>
      obtain ⟨m, rfl⟩ : ∃ k, m = k + 1 := ⟨m - 1, by omega⟩
      have hnm := Nat.le_of_succ_le_succ hnm
      rw [read_succ] at h
      by_cases hskip : skipSpace st.flags s = []
      · rw [hskip] at h
        exact read_enclosed_end hskip h hx
      · obtain ⟨c, s', hs'⟩ := List.exists_cons_of_ne_nil hskip
        have hcons (t : List Char) : skipSpace st.flags (s ++ t) = c :: (s' ++ t) := by
          rw [skipSpace_append hskip, hs', List.cons_append]
        have hflags : (w.enclose names st).flags = st.flags := rfl
        rw [hs'] at h
        rw [read_succ, hflags, hcons] at hx
        dsimp only at h hx
        obtain ⟨⟨sign, rest⟩, hsign, h⟩ := Option.bind_eq_some_iff.mp h
        obtain ⟨st', hst', h⟩ := Option.bind_eq_some_iff.mp h
        -- where the sign is read as it is alone, the rest is read by induction
        have hgo (hu : ∀ u, readSign n st.flags c (s' ++ ')' :: u) = some (sign, rest ++ ')' :: u)) :
            st.Swallows (n + 1) s p ∨ ∃ k names', (w.leave names' p).read k u = some q := by
          rw [readSign_mono (hu u) hnm, Option.bind_some] at hx
          obtain ⟨x, hx', hx⟩ := Option.bind_eq_some_iff.mp hx
          obtain ⟨names', rfl⟩ := perform_enclose hst' hx'
          exact (ih h hnm hx).imp_left fun hrest => hrest.of_sign (hcons _) (hu []) hst'
        have hlocal := local_readSign n st.flags c
        by_cases hrest : rest = []
        · subst hrest
          rcases hlocal.atEnd hsign with hend | hend
          · exact hgo hend
          · refine .inl fun k hk => ?_
            obtain ⟨k, rfl⟩ : ∃ k', k = k' + 1 := ⟨k - 1, by omega⟩
            have hk := Nat.le_of_succ_le_succ hk
            rw [Pending.read_sign (hcons _) hend hst' hk]
            exact Pending.read_mono h hk
        · exact hgo fun u => hlocal.inside hsign hrest u

end Frame

/-- The text does not take a closing parenthesis behind it for a part of itself. -/
def Closed (source : String) : Prop :=
  parse? (source ++ ")") = none

theorem readSign_named {name : String}
    (hname : ∀ rest, readName (name.toList ++ '>' :: rest) = some (name, rest)) :
    readSign m {} '(' ('?' :: 'P' :: '<' :: (name.toList ++ '>' :: s)) =
      some (.opening (some name) {}, s) := by
  have hstart : readGroupStart {} ('?' :: 'P' :: '<' :: (name.toList ++ '>' :: s)) =
      (readName (name.toList ++ '>' :: s)).map fun p => (.group (some p.1) {}, p.2) := rfl
  show (readGroupStart {} _).map _ = _
  rw [hstart, hname]
  rfl

/-- A closed text in a group with a name is read as the pattern that it is alone. -/
theorem read_named_group {source : String} {p q : Pattern} {name : String} {g : OpenGroup}
    {outer : List OpenGroup} {names : List String} (hp : parse? source = some p)
    (hclosed : Closed source)
    (hname : ∀ rest, readName (name.toList ++ '>' :: rest) = some (name, rest))
    (hq : read n {} names g outer (['(', '?', 'P', '<'] ++ (name.toList ++ '>' ::
      (source.toList ++ ')' :: u))) = some q) :
    ∃ k names', read k {} names' (g.add (.group name p)) outer u = some q := by
  let w : Frame := ⟨some name, {}, g, outer⟩
  let start : Pending := ⟨{}, [], {}, []⟩
  obtain ⟨halone, hweight⟩ := Option.filter_eq_some_iff.mp hp
  have halone : start.read (source.toList.length + 1) source.toList = some p := halone
  let within : Pending := ⟨{}, names, g, outer⟩
  have hshort : within.read n _ = some q := hq
  have hlong := Pending.read_mono hshort (Nat.le_add_right n (source.toList.length + 2))
  rw [← Nat.add_assoc, read_succ] at hlong
  obtain ⟨x, hx, hlong⟩ := Option.bind_eq_some_iff.mp hlong
  cases (readSign_named hname).symm.trans hx
  obtain ⟨st, hst, hlong⟩ := Option.bind_eq_some_iff.mp hlong
  obtain ⟨_, heq⟩ := Option.ite_none_left_eq_some.mp hst
  cases heq
  have hlong : (w.enclose (name :: names) start).read (n + source.toList.length + 1)
      (source.toList ++ ')' :: u) = some q := hlong
  rcases Frame.read_enclosed halone (by omega) hlong with hswallow | ⟨k, names', hk⟩
  · -- read alone with the parenthesis behind it, the text would not be closed
    have htext : (source ++ ")").toList = source.toList ++ [')'] := by
      rw [String.toList_append]
      exact congrArg _ String.toList_ofList
    have hread : start.read ((source ++ ")").toList.length + 1) (source ++ ")").toList =
        some p := by
      rw [htext]
      exact hswallow _ (by rw [List.length_append]; omega)
    have hparse : parse? (source ++ ")") = some p :=
      Option.filter_eq_some_iff.mpr ⟨hread, hweight⟩
    rw [Closed, hparse] at hclosed
    cases hclosed
  · exact ⟨k, names', hk⟩

end Pattern

end TagTemplate
