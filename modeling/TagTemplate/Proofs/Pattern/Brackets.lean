import TagTemplate.Proofs.Pattern.Lookahead

/-! # Classes in brackets

The reader of classes goes on until it finds the closing bracket, so what stands behind a class
has no part in it.

* `readClass_succ`: the reader takes one part of a class, a step, and goes on behind it.
* `stepClass_append`: a step is the same wherever the part stands.
* `readClass_append`: a class is read in the same way wherever it stands. -/

namespace TagTemplate

namespace Pattern

variable {f : Flags} {s t u rest : List Char} {n m : Nat}

/-! ### Classes -/

theorem readClassStart_append {o o' : OpenClass} (h : readClassStart f n o s = some (o', rest))
    (hnm : n ≤ m) : readClassStart f m o (s ++ t) = some (o', rest ++ t) := by
  induction n generalizing m o s with
  | zero => cases h
  | succ n ih =>
      obtain ⟨m, rfl⟩ : ∃ k, m = k + 1 := ⟨m - 1, by omega⟩
      cases s with
      | nil => cases h
      | cons c s =>
          rw [readClassStart] at h
          rw [List.cons_append, readClassStart]
          split
          · next hc =>
            rw [if_pos hc] at h
            have hskip : skipSpace f s ≠ [] := by
              intro heq
              rw [heq] at h
              cases n <;> cases h
            rw [skipSpace_append hskip]
            exact ih h (Nat.le_of_succ_le_succ hnm)
          · next hc =>
            rw [if_neg hc] at h
            split
            · next hbracket =>
              rw [if_pos hbracket] at h
              split at h
              · cases h
              · next hskip =>
                cases h
                rw [skipSpace_append hskip]
                obtain ⟨c, r, hr⟩ := List.exists_cons_of_ne_nil hskip
                rw [hr]
                rfl
            · next hbracket =>
              rw [if_neg hbracket] at h
              cases h
              rfl

theorem openClass_append {o : OpenClass} (h : openClass f s = some (o, rest)) :
    openClass f (s ++ t) = some (o, rest ++ t) := by
  unfold openClass at *
  have hskip : skipSpace f s ≠ [] := by
    intro heq
    rw [heq] at h
    cases h
  rw [skipSpace_append hskip]
  obtain ⟨c, r, hr⟩ := List.exists_cons_of_ne_nil hskip
  rw [hr] at h ⊢
  rw [List.cons_append]
  by_cases hc : c = '^'
  · subst hc
    have hskip : skipSpace f r ≠ [] := by
      intro heq
      simp only [heq] at h
      cases h
    simp only [skipSpace_append hskip] at h ⊢
    exact readClassStart_append h (by rw [List.length_append]; omega)
  · split at h
    · next heq =>
      cases heq
      exact absurd rfl hc
    · split
      · next heq =>
        cases heq
        exact absurd rfl hc
      · exact readClassStart_append h (by simp)

theorem ofName?_of_mem {name : List Char} (h : ')' ∈ name) :
    CharClass.ofName? (.ofList name) = none := by
  have hmem : ')' ∈ (String.ofList name).toList := by
    rwa [String.toList_ofList]
  unfold CharClass.ofName?
  dsimp only
  split
  all_goals first
    | rfl
    | next heq =>
      rw [heq] at hmem
      exact absurd hmem (by decide)

theorem dropWhile_append {p : Char → Bool} (h : s.dropWhile p ≠ []) :
    (s ++ t).dropWhile p = s.dropWhile p ++ t := by
  rw [List.dropWhile_append, if_neg (by simpa using h)]

theorem takeWhile_append {p : Char → Bool} (h : s.dropWhile p ≠ []) :
    (s ++ t).takeWhile p = s.takeWhile p := by
  have hlen := congrArg List.length (List.takeWhile_append_dropWhile (p := p) (l := s))
  have hpos := List.length_pos_iff.mpr h
  rw [List.length_append] at hlen
  rw [List.takeWhile_append, if_neg (by omega)]

/-- What remains of a named class behind its colon. -/
def readClassName (negated : Bool) (s : List Char) : Option (CharClass × List Char) :=
  match Text.dropPrefix? [':', ']'] (s.dropWhile (· ≠ ':')) with
  | some rest =>
    (CharClass.ofName? (.ofList (s.takeWhile (· ≠ ':')))).map fun cs =>
      (if negated then .complement cs else cs, rest)
  | none => none

theorem readClassName_append (negated : Bool) (s u : List Char) :
    readClassName negated (s ++ ')' :: u) =
      (readClassName negated s).map fun p => (p.1, p.2 ++ ')' :: u) := by
  unfold readClassName
  by_cases hcolon : s.dropWhile (· ≠ ':') = []
  · have htake : s.takeWhile (· ≠ ':') = s := by
      have h := List.takeWhile_append_dropWhile (p := fun c => decide (c ≠ ':')) (l := s)
      rwa [hcolon, List.append_nil] at h
    have hname : CharClass.ofName? (.ofList ((s ++ ')' :: u).takeWhile (· ≠ ':'))) = none := by
      refine ofName?_of_mem ?_
      rw [List.takeWhile_append, if_pos (congrArg List.length htake)]
      exact List.mem_append_right _ List.mem_cons_self
    rw [hcolon, hname]
    cases Text.dropPrefix? [':', ']'] ((s ++ ')' :: u).dropWhile (· ≠ ':')) <;> rfl
  · rw [dropWhile_append hcolon, takeWhile_append hcolon]
    have hdrop : Text.dropPrefix? [':', ']'] (s.dropWhile (· ≠ ':') ++ ')' :: u) =
        (Text.dropPrefix? [':', ']'] (s.dropWhile (· ≠ ':'))).map (· ++ ')' :: u) := by
      obtain ⟨c, r, hr⟩ := List.exists_cons_of_ne_nil hcolon
      rw [hr]
      cases r with
      | nil => simp [Text.dropPrefix?]
      | cons d r =>
          simp only [List.cons_append, Text.dropPrefix?]
          split
          · split <;> rfl
          · rfl
    rw [hdrop]
    cases Text.dropPrefix? [':', ']'] (s.dropWhile (· ≠ ':')) with
    | none => rfl
    | some r =>
        simp only [Option.map_some, Option.map_map]
        rfl

/-- A class with a name is one wherever the text stands, and so is what is none. -/
theorem readNamedClass?_append (s u : List Char) : readNamedClass? (s ++ ')' :: u) =
    (readNamedClass? s).map fun p => (p.1, p.2 ++ ')' :: u) := by
  have hplain (c : Char) (l : List Char) (hc : c ≠ '^') :
      readNamedClass? (':' :: c :: l) = readClassName false (c :: l) := by
    rw [readNamedClass?]
    · rfl
    · intro _ heq
      exact hc (List.cons.inj heq).1
  cases s with
  | nil => rfl
  | cons c s =>
      by_cases hc : c = ':'
      · subst hc
        cases s with
        | nil => exact (hplain ')' u (by decide)).trans (readClassName_append false [] u)
        | cons d s =>
            by_cases hd : d = '^'
            · subst hd
              exact readClassName_append true s u
            · rw [List.cons_append, List.cons_append, hplain _ _ hd, hplain _ _ hd]
              exact readClassName_append false (d :: s) u
      · have hnone (l : List Char) : readNamedClass? (c :: l) = none := by
          unfold readNamedClass?
          split
          · next heq =>
            cases heq
            exact absurd rfl hc
          · rfl
        rw [List.cons_append, hnone, hnone]
        rfl

def escapedSide? (f : Flags) : Escaped → Option (Char ⊕ CharClass)
  | .literal c => some (.inl c)
  | .byte n => (byteChar? f n).map .inl
  | .set cs negated => (setClass? f cs negated).map .inr
  | .place _ => none

/-- A side of a range given by an escape. -/
def readEscapedSide (f : Flags) (s : List Char) : Option ((Char ⊕ CharClass) × List Char) :=
  (readEscape f s).bind fun p => (escapedSide? f p.1).map fun x => (x, p.2)

/-- A side of a range that stands for itself. -/
def readPlainSide (f : Flags) (c : Char) (s : List Char) :
    Option ((Char ⊕ CharClass) × List Char) :=
  if f.unicode || c.toNat < 0x80 then some (.inl c, s) else none

theorem readClassItem_cons (f : Flags) (c : Char) (s : List Char) : readClassItem f (c :: s) =
    if c = '\\' then readEscapedSide f s else readPlainSide f c s := by
  by_cases hc : c = '\\'
  · subst hc
    rw [if_pos rfl, readClassItem, readEscapedSide]
    rcases readEscape f s with _ | ⟨e, rest⟩
    · rfl
    · cases e <;>
        simp only [Option.bind_some, escapedSide?, Option.map_map, Option.map_some] <;> rfl
  · rw [if_neg hc, readClassItem]
    · rfl
    · exact hc

theorem local_readClassItem (f : Flags) : Local (readClassItem f) := by
  have hitem (c : Char) :
      Local fun s => if c = '\\' then readEscapedSide f s else readPlainSide f c s := by
    split
    · exact (local_readEscape f).filterMap (escapedSide? f)
    · unfold readPlainSide
      split
      · exact .taken _
      · exact .none
  refine (Local.headed hitem).of_eq fun s => ?_
  cases s with
  | nil => rfl
  | cons c s => exact readClassItem_cons f c s

/-- What follows the first side of a range. -/
def readRangeEnd (f : Flags) (first : Char ⊕ CharClass) (s : List Char) :
    Option (CharClass × List Char) :=
  match s with
  | '-' :: rest' =>
    match skipSpace f rest' with
    | [] => none
    | next :: rest'' =>
      if next = ']' ∨ next = '-' then some (sideClass first, '-' :: rest')
      else
        match first, readClassItem f (next :: rest'') with
        | .inl a, some (.inl b, rest) => if a ≤ b then some (.range a b, rest) else none
        | _, _ => none
  | rest => some (sideClass first, rest)

theorem readClassRange_eq (f : Flags) (s : List Char) : readClassRange f s =
    (readClassItem f s).bind fun p => readRangeEnd f p.1 (skipSpace f p.2) := by
  rw [readClassRange]
  cases readClassItem f s <;> rfl

theorem readRangeEnd_append {first : Char ⊕ CharClass} {cs : CharClass}
    (h : readRangeEnd f first s = some (cs, rest)) (hne : rest ≠ []) (u : List Char) :
    readRangeEnd f first (s ++ ')' :: u) = some (cs, rest ++ ')' :: u) := by
  cases s with
  | nil =>
      cases h
      exact absurd rfl hne
  | cons c s =>
      by_cases hc : c = '-'
      · subst hc
        simp only [readRangeEnd, List.cons_append] at h ⊢
        have hskip : skipSpace f s ≠ [] := by
          intro heq
          simp only [heq] at h
          cases h
        rw [skipSpace_append hskip]
        obtain ⟨next, r, hr⟩ := List.exists_cons_of_ne_nil hskip
        rw [hr] at h ⊢
        dsimp only [List.cons_append] at h ⊢
        split
        · next hmark =>
          rw [if_pos hmark] at h
          cases h
          rfl
        · next hmark =>
          rw [if_neg hmark] at h
          split at h
          · next a b r' hitem =>
            split at h
            · next hab =>
              cases h
              have hitem' := (local_readClassItem f).inside hitem hne u
              rw [List.cons_append] at hitem'
              rw [hitem']
              exact if_pos hab
            · cases h
          · cases h
      · have hplain (l : List Char) :
            readRangeEnd f first (c :: l) = some (sideClass first, c :: l) := by
          unfold readRangeEnd
          split
          · next heq =>
            cases heq
            exact absurd rfl hc
          · rfl
        rw [hplain] at h
        rw [List.cons_append, hplain]
        cases h
        rfl

theorem readClassRange_append {cs : CharClass} (h : readClassRange f s = some (cs, rest))
    (hne : rest ≠ []) (u : List Char) :
    readClassRange f (s ++ ')' :: u) = some (cs, rest ++ ')' :: u) := by
  rw [readClassRange_eq] at h ⊢
  obtain ⟨⟨first, r⟩, hitem, hend⟩ := Option.bind_eq_some_iff.mp h
  have hskip : skipSpace f r ≠ [] := by
    intro heq
    rw [heq] at hend
    cases hend
    exact hne rfl
  have hr : r ≠ [] := by
    rintro rfl
    exact hskip (skipSpace_nil f)
  rw [(local_readClassItem f).inside hitem hr u, Option.bind_some]
  dsimp only
  rw [skipSpace_append hskip]
  exact readRangeEnd_append hend hne u

/-- The operation at the beginning of a text. -/
def operation? : List Char → Option (SetOperation × List Char)
  | '&' :: '&' :: s => some (.intersection, s)
  | '-' :: '-' :: s => some (.difference, s)
  | '~' :: '~' :: s => some (.symmetricDifference, s)
  | _ => none

/-- A closing parenthesis does not make an operation of the last character. -/
theorem operation?_append (c : Char) (s u : List Char) : operation? (c :: (s ++ ')' :: u)) =
    (operation? (c :: s)).map fun p => (p.1, p.2 ++ ')' :: u) := by
  cases s with
  | nil =>
      have hnone (l : List Char) (h : l.head? = none ∨ l.head? = some ')') :
          operation? (c :: l) = none := by
        unfold operation?
        split <;> first | rfl | next heq => cases heq; rcases h with h | h <;> cases h
      rw [hnone [] (.inl rfl), List.nil_append, hnone _ (.inr rfl)]
      rfl
  | cons d s =>
      unfold operation?
      split
      · next heq => cases heq; rfl
      · next heq => cases heq; rfl
      · next heq => cases heq; rfl
      · next hand hminus htilde =>
        split
        · next heq => cases heq; exact absurd rfl (hand _)
        · next heq => cases heq; exact absurd rfl (hminus _)
        · next heq => cases heq; exact absurd rfl (htilde _)
        · rfl

/-- Where one part of a class leads: to the class that is read and what stands behind it, or to the
classes that are open then, from the innermost one outwards, and what is left to read. -/
inductive ClassStep where
  | done (cs : CharClass) (rest : List Char)
  | on (o : OpenClass) (outer : List OpenClass) (rest : List Char)

namespace ClassStep

/-- The step when more is left to read. -/
def before (u : List Char) : ClassStep → ClassStep
  | done cs rest => done cs (rest ++ u)
  | on o outer rest => on o outer (rest ++ u)

/-- The class that is read from the step on. -/
def finish (f : Flags) (n : Nat) : ClassStep → Option (CharClass × List Char)
  | done cs rest => some (cs, rest)
  | on o outer rest => readClass f n o outer rest

end ClassStep

def closeClass (f : Flags) (o : OpenClass) (outer : List OpenClass) (s : List Char) :
    Option ClassStep :=
  if !f.unicode && !o.isAscii then none
  else
    match outer with
    | [] => some (.done (o.close f) s)
    | o' :: outer => some (.on (o'.add (o.close f)) outer s)

/-- An opening bracket in a class: a class with a name, or one more class inside. -/
def enterClass (f : Flags) (o : OpenClass) (outer : List OpenClass) (s : List Char) :
    Option ClassStep :=
  match readNamedClass? s with
  | some (cs, rest) => some (.on (o.add cs) outer rest)
  | none => (openClass f s).map fun p => .on p.1 (o :: outer) p.2

/-- Any other part of a class: an operation, or a range. -/
def extendClass (f : Flags) (o : OpenClass) (outer : List OpenClass) (s : List Char) :
    Option ClassStep :=
  match operation? s with
  | some (op, rest) => some (.on (o.operate f op) outer rest)
  | none => (readClassRange f s).map fun p => .on (o.add p.1) outer p.2

def stepClass (f : Flags) (o : OpenClass) (outer : List OpenClass) (s : List Char) :
    Option ClassStep :=
  match skipSpace f s with
  | [] => none
  | c :: s =>
    if c = '[' then enterClass f o outer s
    else if c = ']' then closeClass f o outer s
    else extendClass f o outer (c :: s)

/-- The reader of classes takes one part of a class and goes on behind it. -/
theorem readClass_succ (f : Flags) (n : Nat) (o : OpenClass) (outer : List OpenClass)
    (s : List Char) :
    readClass f (n + 1) o outer s = (stepClass f o outer s).bind (ClassStep.finish f n) := by
  rw [readClass.eq_def, stepClass]
  dsimp only
  generalize skipSpace f s = l
  split
  · rfl
  · next s =>
    simp only [if_true, enterClass]
    cases readNamedClass? s with
    | some p => rfl
    | none => cases openClass f s <;> rfl
  · show _ = (closeClass f o outer _).bind _
    unfold closeClass
    split
    · rfl
    · cases outer <;> rfl
  · rfl
  · rfl
  · rfl
  · next hne hopen hclose hand hminus htilde =>
    cases l with
    | nil => exact absurd rfl hne
    | cons c s =>
        have hc : c ≠ '[' := fun h => hopen s (by rw [h])
        have hc' : c ≠ ']' := fun h => hclose s (by rw [h])
        have hoperation : operation? (c :: s) = none := by
          unfold operation?
          split
          · next heq => exact absurd heq (hand _)
          · next heq => exact absurd heq (hminus _)
          · next heq => exact absurd heq (htilde _)
          · rfl
        simp only [if_neg hc, if_neg hc', extendClass, hoperation]
        cases readClassRange f (c :: s) <;> rfl

theorem readClass_nil (f : Flags) (n : Nat) (o : OpenClass) (outer : List OpenClass) :
    readClass f n o outer [] = none := by
  cases n with
  | zero => rfl
  | succ n => rw [readClass_succ, stepClass, skipSpace_nil]; rfl

variable {o : OpenClass} {outer : List OpenClass} {step : ClassStep}

theorem enterClass_append (h : enterClass f o outer s = some step) (u : List Char) :
    enterClass f o outer (s ++ ')' :: u) = some (step.before (')' :: u)) := by
  rw [enterClass] at h ⊢
  rw [readNamedClass?_append]
  cases hname : readNamedClass? s with
  | some p =>
      rw [hname] at h
      cases h
      rfl
  | none =>
      rw [hname] at h
      obtain ⟨p, hp, rfl⟩ := Option.map_eq_some_iff.mp h
      dsimp only [Option.map_none]
      rw [openClass_append hp]
      rfl

theorem closeClass_append (h : closeClass f o outer s = some step) (u : List Char) :
    closeClass f o outer (s ++ u) = some (step.before u) := by
  unfold closeClass at h ⊢
  split
  · next hascii =>
    rw [if_pos hascii] at h
    cases h
  · next hascii =>
    rw [if_neg hascii] at h
    cases outer <;> cases h <;> rfl

/-- A range is the one part whose end is seen only from what stands behind it. -/
theorem extendClass_append {c : Char} (h : extendClass f o outer (c :: s) = some step)
    (hrest : ∀ o outer, step ≠ .on o outer []) (u : List Char) :
    extendClass f o outer (c :: (s ++ ')' :: u)) = some (step.before (')' :: u)) := by
  rw [extendClass] at h ⊢
  rw [operation?_append]
  cases hoperation : operation? (c :: s) with
  | some p =>
      rw [hoperation] at h
      cases h
      rfl
  | none =>
      rw [hoperation] at h
      obtain ⟨⟨x, r⟩, hp, rfl⟩ := Option.map_eq_some_iff.mp h
      have hr : r ≠ [] := by
        rintro rfl
        exact hrest _ _ rfl
      have hrange := readClassRange_append hp hr u
      rw [List.cons_append] at hrange
      dsimp only [Option.map_none]
      rw [hrange]
      rfl

theorem stepClass_append (h : stepClass f o outer s = some step)
    (hrest : ∀ o outer, step ≠ .on o outer []) (u : List Char) :
    stepClass f o outer (s ++ ')' :: u) = some (step.before (')' :: u)) := by
  rw [stepClass] at h ⊢
  have hskip : skipSpace f s ≠ [] := by
    intro heq
    rw [heq] at h
    cases h
  rw [skipSpace_append hskip]
  obtain ⟨c, s', hs'⟩ := List.exists_cons_of_ne_nil hskip
  rw [hs'] at h ⊢
  rw [List.cons_append]
  dsimp only at h ⊢
  split
  · next hopen =>
    rw [if_pos hopen] at h
    exact enterClass_append h u
  · next hopen =>
    rw [if_neg hopen] at h
    split
    · next hclose =>
      rw [if_pos hclose] at h
      exact closeClass_append h _
    · next hclose =>
      rw [if_neg hclose] at h
      exact extendClass_append h hrest u

theorem readClass_append {cs : CharClass} (h : readClass f n o outer s = some (cs, rest))
    (u : List Char) : readClass f n o outer (s ++ ')' :: u) = some (cs, rest ++ ')' :: u) := by
  induction n generalizing o outer s with
  | zero => cases h
  | succ n ih =>
      rw [readClass_succ] at h ⊢
      obtain ⟨step, hstep, hread⟩ := Option.bind_eq_some_iff.mp h
      have hrest (o : OpenClass) (outer : List OpenClass) : step ≠ .on o outer [] := by
        rintro rfl
        cases (readClass_nil f n o outer).symm.trans hread
      rw [stepClass_append hstep hrest u]
      cases step with
      | done cs rest => cases hread; rfl
      | on o outer r => exact ih hread

theorem readClass_mono {x : CharClass × List Char} (h : readClass f n o outer s = some x)
    (hnm : n ≤ m) : readClass f m o outer s = some x := by
  induction n generalizing m o outer s with
  | zero => cases h
  | succ n ih =>
      obtain ⟨m, rfl⟩ : ∃ k, m = k + 1 := ⟨m - 1, by omega⟩
      rw [readClass_succ] at h ⊢
      obtain ⟨step, hstep, hread⟩ := Option.bind_eq_some_iff.mp h
      refine Option.bind_eq_some_iff.mpr ⟨step, hstep, ?_⟩
      cases step with
      | done cs rest => exact hread
      | on o outer r => exact ih hread (Nat.le_of_succ_le_succ hnm)

end Pattern

end TagTemplate
