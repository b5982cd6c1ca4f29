import TagTemplate.Document.Fragment
import TagTemplate.Proofs.Pattern.Emptiness
import TagTemplate.Proofs.Scanning.Unified

/-! # Progress of the scanner

The loops that read a text and look for closing tags go on behind each match, so they end if no
match is empty.  The patterns of a tag are tried on the empty text when they are compiled, which
does not rule out empty matches elsewhere.

* `TagScanner.Advances`: every match takes a character, and every round of the loops goes forward.
* `Advances.readFrom_eq`: then reading never meets a tag that it would find again and again.
* `advances_iff`: a unified scanner advances exactly if the patterns that its loops try are proper;
  they are if the empty text decides for each of them whether it can match nothing. -/

namespace TagTemplate

namespace TagScanner

/-! ### The rounds of the loops -/

/-- What the search for the closing tag of a block steps over. -/
def skipped (s : TagScanner) (m : TagMatcher) (text : Array Char) : Nat → Nat → Option Nat :=
  if m.tag.rawBody then noSkip else s.skipRaw m.tag.name text

theorem closer?_eq (s : TagScanner) (m : TagMatcher) (text : Array Char) (pos : Nat) :
    s.closer? m text pos = m.closer.bind fun c =>
      balance m.opener.pattern c.pattern (s.skipped m text) text 0 pos := by
  unfold closer? skipped plainCloser?
  split <;> rfl

/-- The number of open blocks and the position after one round of the search for a closing tag,
unless the round ends the search. -/
def balanceNext (opener closer : Pattern) (skip : Nat → Nat → Option Nat) (text : Array Char)
    (depth pos : Nat) : Option (Nat × Nat) :=
  match closer.find? text pos with
  | none => none
  | some close =>
    let next := opener.find? text pos
    match skip pos (next.elim close.start fun o => min o.start close.start) with
    | some stop => some (depth, stop)
    | none =>
      match next.filter fun o => o.start < close.start with
      | some o => some (depth + 1, o.stop)
      | none => if depth = 0 then none else some (depth - 1, close.stop)

/-- The position after one round of reading, unless no tag is left. -/
def readNext (s : TagScanner) (text : Array Char) (cursor : Nat) : Option Nat :=
  (s.find? text cursor).map fun m =>
    if m.tag.isBlock then (s.closer? m.matcher text m.stop).elim m.stop (·.2) else m.stop

/-- Every match of the scanner takes a character, and every round of its loops goes forward. -/
structure Advances (s : TagScanner) : Prop where
  find {text : Array Char} {start : Nat} {m : TagMatch} (h : s.find? text start = some m) :
    start ≤ m.start ∧ m.start < m.stop ∧ m.stop ≤ text.size
  opener {m : TagMatcher} (hm : m ∈ s.matchers) (hb : m.closer.isSome) {text : Array Char}
    {start : Nat} {x : Pattern.Match} (h : m.opener.pattern.find? text start = some x) :
    start ≤ x.start ∧ x.start < x.stop ∧ x.stop ≤ text.size
  closer {m : TagMatcher} (hm : m ∈ s.matchers) {c : Fragment} (hc : m.closer = some c)
    {text : Array Char} {start : Nat} {x : Pattern.Match}
    (h : c.pattern.find? text start = some x) :
    start ≤ x.start ∧ x.start < x.stop ∧ x.stop ≤ text.size
  balance {m : TagMatcher} (hm : m ∈ s.matchers) {c : Fragment} (hc : m.closer = some c)
    {text : Array Char} {depth pos depth' pos' : Nat}
    (h : balanceNext m.opener.pattern c.pattern (s.skipped m text) text depth pos =
      some (depth', pos')) : pos < pos' ∧ pos' ≤ text.size
  read {text : Array Char} {cursor next : Nat} (h : s.readNext text cursor = some next) :
    cursor < next ∧ next ≤ text.size

/-! ### The search for closing tags -/

section balance
variable {opener closer : Pattern} {skip : Nat → Nat → Option Nat} {text : Array Char}

/-- The matches of a pattern take characters. -/
def Takes (p : Pattern) (text : Array Char) : Prop :=
  ∀ (start : Nat) (x : Pattern.Match), p.find? text start = some x →
    start ≤ x.start ∧ x.start < x.stop ∧ x.stop ≤ text.size

/-- What is stepped over takes characters. -/
def SkipsAhead (skip : Nat → Nat → Option Nat) (text : Array Char) : Prop :=
  ∀ (pos limit stop : Nat), skip pos limit = some stop → pos < stop ∧ stop ≤ text.size

variable (ho : Takes opener text) (hc : Takes closer text) (hs : SkipsAhead skip text)
include ho hc hs

theorem balanceNext_lt {depth pos depth' pos' : Nat}
    (h : balanceNext opener closer skip text depth pos = some (depth', pos')) :
    pos < pos' ∧ pos' ≤ text.size := by
  unfold balanceNext at h
  split at h
  · cases h
  · next close hclose =>
    dsimp only at h
    split at h
    · next stop hstop =>
      cases h
      exact hs _ _ _ hstop
    · split at h
      · next o hfilter =>
        cases h
        have := ho pos o (Option.filter_eq_some_iff.mp hfilter).1
        omega
      · split at h
        · cases h
        · cases h
          have := hc pos close hclose
          omega

/-- The search goes on after each round; the last round gives the closing tag, if there is one. -/
theorem balance_eq (depth pos : Nat) : balance opener closer skip text depth pos =
    match balanceNext opener closer skip text depth pos with
    | some (depth', pos') => balance opener closer skip text depth' pos'
    | none => (closer.find? text pos).map fun close => (close.start, close.stop) := by
  rw [balance, balanceNext]
  cases hclose : closer.find? text pos with
  | none => rfl
  | some close =>
      dsimp only
      cases hskip : skip pos ((opener.find? text pos).elim close.start
          fun o => min o.start close.start) with
      | some stop => simp only [dif_pos (hs _ _ _ hskip)]
      | none =>
          cases hnext : (opener.find? text pos).filter fun o => o.start < close.start with
          | some o =>
              have := ho pos o (Option.filter_eq_some_iff.mp hnext).1
              have hlt : pos < o.stop ∧ o.stop ≤ text.size := by omega
              simp only [dif_pos hlt]
          | none =>
              have := hc pos close hclose
              have hlt : pos ≤ close.stop ∧ close.stop ≤ text.size := by omega
              cases depth with
              | zero => simp
              | succ depth => simp [hlt]

/-- The closing tag found lies behind the position, and takes a character. -/
theorem bounds_of_balance {first last : Nat} : ∀ (n depth pos : Nat), text.size - pos < n →
    balance opener closer skip text depth pos = some (first, last) →
      pos ≤ first ∧ first < last ∧ last ≤ text.size
  | 0, _, _, hn, _ => absurd hn (Nat.not_lt_zero _)
  | n + 1, depth, pos, hn, h => by
      rw [balance_eq ho hc hs] at h
      cases hnext : balanceNext opener closer skip text depth pos with
      | some r =>
          obtain ⟨depth', pos'⟩ := r
          rw [hnext] at h
          have hlt := balanceNext_lt ho hc hs hnext
          have := bounds_of_balance n depth' pos' (by omega) h
          omega
      | none =>
          rw [hnext] at h
          obtain ⟨close, hclose, heq⟩ := Option.map_eq_some_iff.mp h
          cases heq
          exact hc pos close hclose

end balance

section scanner
variable {s : TagScanner}

theorem mem_of_earliest {l : List (TagMatcher × Pattern.Match)} {x : TagMatcher × Pattern.Match}
    (h : earliest l = some x) : x ∈ l := by
  induction l generalizing x with
  | nil => cases h
  | cons a l ih =>
      rw [earliest] at h
      cases he : earliest l with
      | none =>
          rw [he] at h
          cases h
          exact List.mem_cons_self
      | some b =>
          rw [he] at h
          dsimp only at h
          split at h
          · cases h
            exact List.mem_cons_of_mem a (ih he)
          · cases h
            exact List.mem_cons_self

/-- The raw block that opens first is that of a tag of the scanner. -/
theorem found_of_earliest {tag : String} {text : Array Char} {pos limit : Nat} {m : TagMatcher}
    {o : Pattern.Match} (h : earliest (s.rawOpeners tag text pos limit) = some (m, o)) :
    m ∈ s.matchers ∧ m.opener.pattern.find? text pos = some o := by
  obtain ⟨m', hm, hfilter⟩ := List.mem_filterMap.mp (mem_of_earliest h)
  split at hfilter
  · obtain ⟨o', ho, heq⟩ := Option.map_eq_some_iff.mp hfilter
    cases heq
    exact ⟨hm, (Option.filter_eq_some_iff.mp ho).1⟩
  · cases hfilter

theorem skipsAhead_noSkip (text : Array Char) : SkipsAhead noSkip text :=
  fun _ _ _ h => by cases h

variable
  (hopener : ∀ m ∈ s.matchers, m.closer.isSome → ∀ text, Takes m.opener.pattern text)
  (hcloser : ∀ m ∈ s.matchers, ∀ c, m.closer = some c → ∀ text, Takes c.pattern text)
include hopener hcloser

theorem bounds_of_plainCloser? {m : TagMatcher} (hm : m ∈ s.matchers) {text : Array Char}
    {pos first last : Nat} (h : plainCloser? m text pos = some (first, last)) :
    pos ≤ first ∧ first < last ∧ last ≤ text.size := by
  obtain ⟨c, hc, h⟩ := Option.bind_eq_some_iff.mp h
  exact bounds_of_balance (hopener m hm (by rw [hc]; rfl) text) (hcloser m hm c hc text)
    (skipsAhead_noSkip text) _ 0 pos (Nat.lt_succ_self _) h

theorem skipsAhead_skipRaw (tag : String) (text : Array Char) :
    SkipsAhead (s.skipRaw tag text) text := by
  intro pos limit stop h
  obtain ⟨⟨m, o⟩, hearliest, h⟩ := Option.bind_eq_some_iff.mp h
  obtain ⟨⟨first, last⟩, hplain, rfl⟩ := Option.map_eq_some_iff.mp h
  obtain ⟨hm, ho⟩ := found_of_earliest hearliest
  have hclose : m.closer.isSome := by
    obtain ⟨c, hc, _⟩ := Option.bind_eq_some_iff.mp hplain
    rw [hc]
    rfl
  have hstart := hopener m hm hclose text pos o ho
  have := bounds_of_plainCloser? hopener hcloser hm hplain
  omega

theorem skipsAhead_skipped (m : TagMatcher) (text : Array Char) :
    SkipsAhead (s.skipped m text) text := by
  unfold skipped
  split
  · exact skipsAhead_noSkip text
  · exact skipsAhead_skipRaw hopener hcloser _ text

theorem bounds_of_closer? {m : TagMatcher} (hm : m ∈ s.matchers) {text : Array Char}
    {pos first last : Nat} (h : s.closer? m text pos = some (first, last)) :
    pos ≤ first ∧ first < last ∧ last ≤ text.size := by
  rw [closer?_eq] at h
  obtain ⟨c, hc, h⟩ := Option.bind_eq_some_iff.mp h
  exact bounds_of_balance (hopener m hm (by rw [hc]; rfl) text) (hcloser m hm c hc text)
    (skipsAhead_skipped hopener hcloser m text) _ 0 pos (Nat.lt_succ_self _) h

theorem advances_of_takes (hfind : ∀ (text : Array Char) (start : Nat) (m : TagMatch),
    s.find? text start = some m → start ≤ m.start ∧ m.start < m.stop ∧ m.stop ≤ text.size) :
    s.Advances where
  find h := hfind _ _ _ h
  opener {m} hm hb text start x h := hopener m hm hb text start x h
  closer {m} hm {c} hc text start x h := hcloser m hm c hc text start x h
  balance {m} hm {c} hc text _ _ _ _ h :=
    balanceNext_lt (hopener m hm (by rw [hc]; rfl) text) (hcloser m hm c hc text)
      (skipsAhead_skipped hopener hcloser m text) h
  read {text cursor next} h := by
    obtain ⟨m, hm, hnext⟩ := Option.map_eq_some_iff.mp h
    have hlt := hfind text cursor m hm
    split at hnext
    · cases hclose : s.closer? m.matcher text m.stop with
      | none =>
          rw [hclose, Option.elim_none] at hnext
          omega
      | some r =>
          obtain ⟨first, last⟩ := r
          rw [hclose, Option.elim_some] at hnext
          have := bounds_of_closer? hopener hcloser (mem_matchers hm) hclose
          omega
    · omega

end scanner

/-- The closing tag that a scanner finds lies behind the position, and takes a character. -/
theorem Advances.closer?_bounds {s : TagScanner} (h : s.Advances) {m : TagMatcher}
    (hm : m ∈ s.matchers) {text : Array Char} {pos first last : Nat}
    (hclose : s.closer? m text pos = some (first, last)) :
    pos ≤ first ∧ first < last ∧ last ≤ text.size :=
  bounds_of_closer? (fun _ hm hb _ _ _ => h.opener hm hb)
    (fun _ hm _ hc _ _ _ => h.closer hm hc) hm hclose

/-! ### Reading without a way out -/

/-- One round of reading, with `again` for the rounds to come. -/
def readOnce (s : TagScanner) (again : Nat → Array Char → Nat → Nat → Reading) (base : Nat)
    (text : Array Char) (start cursor : Nat) : Reading :=
  match s.find? text cursor with
  | none => { parts := literalPart base text start text.size }
  | some m =>
    let before := literalPart base text start m.start
    let matched := slice text m.start m.stop
    let body := String.ofList (m.tag.body s.delimiters matched)
    if !m.tag.isBlock then
      let rest := again base text m.stop m.stop
      let leaf := Part.leaf m.tag body (.ofList matched) (spanOf base text m.start m.stop)
      { rest with parts := before ++ leaf :: rest.parts }
    else
      match s.closer? m.matcher text m.stop with
      | some (close, stop) =>
        let inside := slice text m.stop close
        let span := spanOf base text m.start stop
        let inner : Reading :=
          if m.tag.rawBody then { parts := [.raw m.tag body (.ofList inside) span] }
          else
            let r := again (base + Text.offsetOf text.toList m.stop) (text.extract m.stop close) 0 0
            { r with parts := [.block m.tag body (.ofList inside) r.parts span] }
        let rest := again base text stop stop
        { parts := before ++ inner.parts ++ rest.parts, errors := inner.errors ++ rest.errors }
      | none =>
        let rest := again base text start m.stop
        { rest with
          errors := .unclosedBlock m.tag.name (spanOf base text m.start m.stop) :: rest.errors }

/-- No tag is met that takes no character, so each round is followed by the next. -/
theorem Advances.readFrom_eq {s : TagScanner} (h : s.Advances) (base : Nat) (text : Array Char)
    (start cursor : Nat) :
    s.readFrom base text start cursor = s.readOnce s.readFrom base text start cursor := by
  rw [readFrom, readOnce]
  cases hfind : s.find? text cursor with
  | none => rfl
  | some m =>
      have hm := h.find hfind
      have hleaf : cursor < m.stop ∧ m.stop ≤ text.size := by omega
      dsimp only
      split
      · rfl
      · cases hclose : s.closer? m.matcher text m.stop with
        | none => rfl
        | some r =>
            obtain ⟨close, stop⟩ := r
            have := bounds_of_closer? (fun _ hm hb _ _ _ => h.opener hm hb)
              (fun _ hm _ hc _ _ _ => h.closer hm hc) (mem_matchers hfind) hclose
            have hlt : cursor < stop ∧ stop ≤ text.size := by omega
            have hinner : close - m.stop < text.size := by omega
            simp only [dif_pos hlt, dif_pos hinner]

section rounds
variable {s : TagScanner} (h : s.Advances) (base : Nat) {text : Array Char} {start cursor : Nat}
  {m : TagMatch} (hfind : s.find? text cursor = some m)

def opened (text : Array Char) (m : TagMatch) : List Char :=
  slice text m.start m.stop

def foundBody (s : TagScanner) (text : Array Char) (m : TagMatch) : String :=
  .ofList (m.tag.body s.delimiters (opened text m))

include h

theorem Advances.readFrom_end (hnone : s.find? text cursor = none) :
    s.readFrom base text start cursor = { parts := literalPart base text start text.size } := by
  rw [h.readFrom_eq, readOnce, hnone]

include hfind

theorem Advances.readFrom_leaf (hleaf : m.tag.isBlock = false) :
    s.readFrom base text start cursor =
      let rest := s.readFrom base text m.stop m.stop
      { parts := literalPart base text start m.start ++
          .leaf m.tag (s.foundBody text m) (.ofList (opened text m))
            (spanOf base text m.start m.stop) :: rest.parts
        errors := rest.errors } := by
  rw [h.readFrom_eq, readOnce, hfind]
  simp only [hleaf, Bool.not_false, if_true]
  rfl

theorem Advances.readFrom_raw {close stop : Nat} (hblock : m.tag.isBlock = true)
    (hraw : m.tag.rawBody = true)
    (hclose : s.closer? m.matcher text m.stop = some (close, stop)) :
    s.readFrom base text start cursor =
      let rest := s.readFrom base text stop stop
      { parts := literalPart base text start m.start ++
          .raw m.tag (s.foundBody text m) (.ofList (slice text m.stop close))
            (spanOf base text m.start stop) :: rest.parts
        errors := rest.errors } := by
  rw [h.readFrom_eq, readOnce, hfind]
  simp only [hblock, hraw, hclose, Bool.not_true, Bool.false_eq_true, if_false, if_true,
    List.append_assoc, List.singleton_append, List.nil_append]
  rfl

theorem Advances.readFrom_block {close stop : Nat} (hblock : m.tag.isBlock = true)
    (hraw : m.tag.rawBody = false)
    (hclose : s.closer? m.matcher text m.stop = some (close, stop)) :
    s.readFrom base text start cursor =
      let inner := s.readFrom (base + Text.offsetOf text.toList m.stop)
        (text.extract m.stop close) 0 0
      let rest := s.readFrom base text stop stop
      { parts := literalPart base text start m.start ++
          .block m.tag (s.foundBody text m) (.ofList (slice text m.stop close)) inner.parts
            (spanOf base text m.start stop) :: rest.parts
        errors := inner.errors ++ rest.errors } := by
  rw [h.readFrom_eq, readOnce, hfind]
  simp only [hblock, hraw, hclose, Bool.not_true, Bool.false_eq_true, if_false,
    List.append_assoc, List.singleton_append]
  rfl

theorem Advances.readFrom_unclosed (hblock : m.tag.isBlock = true)
    (hclose : s.closer? m.matcher text m.stop = none) :
    s.readFrom base text start cursor =
      let rest := s.readFrom base text start m.stop
      { rest with
        errors := .unclosedBlock m.tag.name (spanOf base text m.start m.stop) :: rest.errors } := by
  rw [h.readFrom_eq, readOnce, hfind]
  simp only [hblock, hclose, Bool.not_true, Bool.false_eq_true, if_false]

end rounds

/-! ### When a scanner advances -/

theorem takes_of_proper {p : Pattern} (h : p.Proper) (text : Array Char) : Takes p text :=
  fun _ _ hx => h.bounds_of_find? hx

theorem proper_of_takes {p : Pattern} (h : ∀ text, Takes p text) : p.Proper := by
  intro text pos t hpos hat
  have hfind : p.find? text pos = some ⟨pos, t.pos, t.groups⟩ :=
    Pattern.find?_eq_some_iff.mpr ⟨Nat.le_refl pos, hpos, hat,
      fun _ h₁ h₂ => absurd h₁ (Nat.not_le_of_lt h₂)⟩
  exact (h text pos _ hfind).2.1

/-- A scanner whose text is read as it looks advances exactly if the first tag that opens at a
place always takes a character there, and so do the patterns of blocks.  All of them do if the
empty text decides whether they can match nothing. -/
theorem advances_iff {tags : TagSet} {d : Delimiters} {s : TagScanner}
    (hs : ofTags tags d = .ok s) (hu : s.Unified) :
    (s.Advances ↔
      (∀ (text : Array Char) (pos : Nat) (m : TagMatch), pos ≤ text.size →
        s.opening? text pos = some m → pos < m.stop) ∧
      ∀ m ∈ s.matchers, ∀ c, m.closer = some c → m.opener.pattern.Proper ∧ c.pattern.Proper) ∧
    ((∀ m ∈ s.matchers, ∀ p ∈ m.patterns, p.Decided) → s.Advances) := by
  have hg : ∀ m ∈ s.matchers, m.opener.pattern.groupNames = [] :=
    fun m hm => (compiled_of_mem hs hm List.mem_cons_self).1
  have hback : ((∀ (text : Array Char) (pos : Nat) (m : TagMatch), pos ≤ text.size →
        s.opening? text pos = some m → pos < m.stop) ∧
      ∀ m ∈ s.matchers, ∀ c, m.closer = some c → m.opener.pattern.Proper ∧ c.pattern.Proper) →
      s.Advances := by
    rintro ⟨hopening, hblocks⟩
    refine advances_of_takes (fun m hm hb text => ?_)
      (fun m hm c hc text => takes_of_proper (hblocks m hm c hc).2 text) fun text start m h => ?_
    · obtain ⟨c, hc⟩ := Option.isSome_iff_exists.mp hb
      exact takes_of_proper (hblocks m hm c hc).1 text
    · obtain ⟨groups, hm⟩ := find?_pattern hu hg h
      have hbounds := Pattern.bounds_of_find? hm
      obtain ⟨_, hsize, hat, _⟩ := Pattern.find?_eq_some_iff.mp hm
      dsimp only at hbounds hsize hat
      rw [matchAt?_pattern hu hg (List.ne_nil_of_mem (mem_matchers h)) hsize] at hat
      obtain ⟨x, hx, heq⟩ := Option.map_eq_some_iff.mp hat
      have := hopening text m.start x hsize hx
      obtain ⟨hstop, _⟩ := Trail.mk.injEq _ _ _ _ ▸ heq
      omega
  refine ⟨⟨fun h => ⟨fun text pos m hpos hm => ?_, fun m hm c hc => ⟨?_, ?_⟩⟩, hback⟩,
    fun hdecided => hback ⟨fun text pos m hpos hm => ?_, fun m hm c hc => ⟨?_, ?_⟩⟩⟩
  · obtain ⟨t, ht⟩ := find?_of_opening? hu hg hpos hm
    exact (h.find ht).2.1
  · exact proper_of_takes fun text start x hx => h.opener hm (by rw [hc]; rfl) hx
  · exact proper_of_takes fun text start x hx => h.closer hm hc hx
  · obtain ⟨_, hmem, u, hat, hstop⟩ := start_of_opening? hm
    rw [← hstop]
    exact (hdecided _ hmem _ List.mem_cons_self).proper
      (compiled_of_mem hs hmem List.mem_cons_self).2 text pos u hpos hat
  · exact (hdecided m hm _ List.mem_cons_self).proper
      (compiled_of_mem hs hm List.mem_cons_self).2
  · have hp : c.pattern ∈ m.patterns := by simp [TagMatcher.patterns, hc]
    exact (hdecided m hm _ hp).proper (compiled_of_mem hs hm hp).2

/-- A block between double angle brackets. -/
def angleTag : TagDefinition where
  name := "t"
  pattern := "<<"
  kind := .custom
  closing := some ">>"

def twice (c : Char) : Pattern :=
  .seq (.char (.single c)) (.char (.single c))

/-- The scanner of the block between double angle brackets. -/
def angleScanner : TagScanner where
  delimiters := {}
  matchers := [⟨angleTag, "t", ⟨"<<", twice '<'⟩, some ⟨">>", twice '>'⟩⟩]
  source := "(?P<t><<)"
  pattern := .group "t" (twice '<')

theorem advances_angleScanner :
    ofTags ⟨[angleTag]⟩ {} = .ok angleScanner ∧ angleScanner.Advances := by
  have hs : ofTags ⟨[angleTag]⟩ {} = .ok angleScanner := rfl
  refine ⟨hs, (advances_iff hs fun _ => rfl).2 fun m hm p hp => ?_⟩
  have hsteady : ∀ m ∈ angleScanner.matchers, ∀ p ∈ m.patterns, p.Steady := by decide
  exact (hsteady m hm p hp).decided

/-- The edge of a word is accepted as a pattern, since the empty text has none, and it matches
nothing but empty texts. -/
theorem compiled_boundary_not_proper :
    ∃ f, Fragment.compile "t" "\\b" {} = .ok f ∧ ¬ f.pattern.Proper := by
  refine ⟨⟨"\\b", .place (.boundary false)⟩, rfl, fun h => ?_⟩
  exact absurd (h #['a'] 0 ⟨0, []⟩ (Nat.zero_le _) (by decide +kernel)) (Nat.lt_irrefl 0)

end TagScanner

end TagTemplate
