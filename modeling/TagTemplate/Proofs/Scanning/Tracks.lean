import Mathlib.Data.Option.Basic
import TagTemplate.Proofs.Scanning.Advance

/-! # Two texts side by side

Positions of two texts can correspond, in their order.  Where the patterns of a scanner are found
at corresponding positions of both texts, so are the closing tags of blocks.

* `Track.Alike`: a pattern is found at corresponding positions.
* `Track.balance`, `Track.closer?`: then the search for a closing tag goes along in both texts. -/

namespace TagTemplate

/-- Positions of two texts that correspond, in their order. -/
structure Track where
  faces : Nat → Nat → Prop
  lt_iff {i i' j j' : Nat} (h : faces i i') (h' : faces j j') : i < j ↔ i' < j'

namespace Track

open TagScanner

variable (k : Track) {text text' : Array Char}

theorem faces_min {i i' j j' : Nat} (h : k.faces i i') (h' : k.faces j j') :
    k.faces (min i j) (min i' j') := by
  have hlt := k.lt_iff h' h
  rcases Nat.lt_or_ge j i with hji | hij
  · rwa [Nat.min_eq_right (Nat.le_of_lt hji), Nat.min_eq_right (Nat.le_of_lt (hlt.mp hji))]
  · rwa [Nat.min_eq_left hij, Nat.min_eq_left (Nat.le_of_not_lt (mt hlt.mpr (Nat.not_lt.mpr hij)))]

/-- Two matches at corresponding places. -/
structure Matches (m m' : Pattern.Match) : Prop where
  start : k.faces m.start m'.start
  stop : k.faces m.stop m'.stop

/-- The pattern is found at corresponding places, from corresponding positions on. -/
def Alike (text text' : Array Char) (p : Pattern) : Prop :=
  ∀ {pos pos' : Nat}, k.faces pos pos' →
    Option.Rel k.Matches (p.find? text pos) (p.find? text' pos')

/-- The same is stepped over in both texts. -/
def SkipsAlike (skip skip' : Nat → Nat → Option Nat) : Prop :=
  ∀ {pos pos' limit limit' : Nat}, k.faces pos pos' → k.faces limit limit' →
    Option.Rel k.faces (skip pos limit) (skip' pos' limit')

/-- Closing tags at corresponding places. -/
def Closers (r r' : Nat × Nat) : Prop :=
  k.faces r.1 r'.1 ∧ k.faces r.2 r'.2

variable {k}

section places
variable {o o' : Option Pattern.Match} (ho : Option.Rel k.Matches o o') {i i' : Nat}
  (hi : k.faces i i')
include ho hi

theorem elim_min : k.faces (o.elim i fun m => min m.start i)
    (o'.elim i' fun m => min m.start i') := by
  cases ho with
  | none => exact hi
  | some hm => exact k.faces_min hm.start hi

theorem filter_lt : Option.Rel k.Matches (o.filter fun m => m.start < i)
    (o'.filter fun m => m.start < i') := by
  cases ho with
  | none => exact .none
  | @some m m' hm =>
      have hlt := k.lt_iff hm.start hi
      rw [Option.filter_some, Option.filter_some]
      by_cases h : m.start < i
      · rw [if_pos (decide_eq_true h), if_pos (decide_eq_true (hlt.mp h))]
        exact .some hm
      · rw [if_neg (by simpa using h), if_neg (by simpa using mt hlt.mpr h)]
        exact .none

end places

/-! ### The search for closing tags -/

section balance
variable {opener closer : Pattern} {skip skip' : Nat → Nat → Option Nat}
  (hopener : k.Alike text text' opener) (hcloser : k.Alike text text' closer)
  (hskip : k.SkipsAlike skip skip')
include hopener hcloser hskip

theorem balanceNext {pos pos' : Nat} (hpos : k.faces pos pos') (depth : Nat) :
    Option.Rel (fun r r' => r'.1 = r.1 ∧ k.faces r.2 r'.2)
      (TagScanner.balanceNext opener closer skip text depth pos)
      (TagScanner.balanceNext opener closer skip' text' depth pos') := by
  have hopen := hopener hpos
  have hclose := hcloser hpos
  unfold TagScanner.balanceNext
  generalize closer.find? text pos = c, closer.find? text' pos' = c' at hclose
  cases hclose with
  | none => exact .none
  | @some c c' hc =>
      dsimp only
      have hnext := filter_lt hopen hc.start
      have hstop := hskip hpos (elim_min hopen hc.start)
      generalize skip pos _ = stop, skip' pos' _ = stop' at hstop
      cases hstop with
      | some hstop => exact .some ⟨rfl, hstop⟩
      | none =>
          generalize Option.filter _ (opener.find? text pos) = o,
            Option.filter _ (opener.find? text' pos') = o' at hnext
          cases hnext with
          | some ho => exact .some ⟨rfl, ho.stop⟩
          | none =>
              dsimp only
              split
              · exact .none
              · exact .some ⟨rfl, hc.stop⟩

variable (ho : Takes opener text) (hc : Takes closer text) (hs : SkipsAhead skip text)
  (ho' : Takes opener text') (hc' : Takes closer text') (hs' : SkipsAhead skip' text')
include ho hc hs ho' hc' hs'

/-- The closing tag that the search finds in one text corresponds to that of the other. -/
theorem balance {pos pos' : Nat} (hpos : k.faces pos pos') (depth : Nat) :
    Option.Rel k.Closers (TagScanner.balance opener closer skip text depth pos)
      (TagScanner.balance opener closer skip' text' depth pos') := by
  -- by induction on what is left of the first text
  generalize hn : text.size - pos = n
  induction n using Nat.strongRecOn generalizing depth pos pos' with
  | ind n ih =>
      have hnext := balanceNext hopener hcloser hskip hpos depth
      have hlt {depth' next : Nat} (h : TagScanner.balanceNext opener closer skip text depth pos =
          some (depth', next)) := balanceNext_lt ho hc hs h
      rw [balance_eq ho hc hs, balance_eq ho' hc' hs']
      generalize TagScanner.balanceNext opener closer skip text depth pos = r,
        TagScanner.balanceNext opener closer skip' text' depth pos' = r' at hnext hlt
      cases hnext with
      | none =>
          have hclose := hcloser hpos
          generalize closer.find? text pos = c, closer.find? text' pos' = c' at hclose
          cases hclose with
          | none => exact .none
          | some hc => exact .some ⟨hc.start, hc.stop⟩
      | @some r r' hr =>
          obtain ⟨depth', next⟩ := r
          obtain ⟨_, next'⟩ := r'
          obtain ⟨rfl, hr⟩ := hr
          have := hlt rfl
          exact ih _ (by omega) hr _ rfl

end balance

/-! ### Raw blocks and closing tags -/

section scanner
variable {s : TagScanner}
  (hopener : ∀ m ∈ s.matchers, m.closer.isSome → ∀ text, Takes m.opener.pattern text)
  (hcloser : ∀ m ∈ s.matchers, ∀ c, m.closer = some c → ∀ text, Takes c.pattern text)
include hopener hcloser

/-- The patterns of a block are found at corresponding places. -/
def Knows (k : Track) (text text' : Array Char) (m : TagMatcher) : Prop :=
  k.Alike text text' m.opener.pattern ∧
    ∀ c, m.closer = some c → k.Alike text text' c.pattern

theorem plainCloser? {m : TagMatcher} (hm : m ∈ s.matchers) (hk : k.Knows text text' m)
    {pos pos' : Nat} (hpos : k.faces pos pos') :
    Option.Rel k.Closers (TagScanner.plainCloser? m text pos)
      (TagScanner.plainCloser? m text' pos') := by
  unfold TagScanner.plainCloser?
  cases hc : m.closer with
  | none => exact .none
  | some c =>
      have hopens := hopener m hm (by rw [hc]; rfl)
      have hcloses := hcloser m hm c hc
      exact balance hk.1 (hk.2 c hc) (fun _ _ => .none) (hopens text) (hcloses text)
        (skipsAhead_noSkip text) (hopens text') (hcloses text') (skipsAhead_noSkip text') hpos 0

/-- The patterns of the raw blocks are found at corresponding places. -/
def KnowsRaw (k : Track) (s : TagScanner) (text text' : Array Char) : Prop :=
  ∀ m ∈ s.matchers, m.tag.rawBody = true → k.Knows text text' m

/-- Two raw blocks of one tag that open at corresponding places. -/
def Openers (k : Track) (x x' : TagMatcher × Pattern.Match) : Prop :=
  x'.1 = x.1 ∧ k.Matches x.2 x'.2

omit hopener hcloser in
theorem forall₂_filterMap {f f' : TagMatcher → Option (TagMatcher × Pattern.Match)} :
    ∀ {ms : List TagMatcher}, (∀ m ∈ ms, Option.Rel k.Openers (f m) (f' m)) →
      List.Forall₂ k.Openers (ms.filterMap f) (ms.filterMap f')
  | [], _ => .nil
  | m :: ms, h => by
      have hm := h m List.mem_cons_self
      have hms := forall₂_filterMap fun m' hm' => h m' (List.mem_cons_of_mem m hm')
      rw [List.filterMap_cons, List.filterMap_cons]
      generalize f m = x, f' m = x' at hm
      cases hm with
      | none => exact hms
      | some hx => exact .cons hx hms

omit hopener hcloser in
theorem earliest {l l' : List (TagMatcher × Pattern.Match)} (h : List.Forall₂ k.Openers l l') :
    Option.Rel k.Openers (TagScanner.earliest l) (TagScanner.earliest l') := by
  induction h with
  | nil => exact .none
  | @cons a a' l l' ha _ ih =>
      rw [TagScanner.earliest, TagScanner.earliest]
      generalize TagScanner.earliest l = x, TagScanner.earliest l' = x' at ih
      cases ih with
      | none => exact .some ha
      | @some b b' hb =>
          have hlt := k.lt_iff hb.2.start ha.2.start
          dsimp only
          by_cases h : b.2.start < a.2.start
          · rw [if_pos h, if_pos (hlt.mp h)]
            exact .some hb
          · rw [if_neg h, if_neg (mt hlt.mpr h)]
            exact .some ha

theorem skipsAlike_skipRaw (hraw : k.KnowsRaw s text text') (tag : String) :
    k.SkipsAlike (s.skipRaw tag text) (s.skipRaw tag text') := by
  intro pos pos' limit limit' hpos hlimit
  have hopeners : List.Forall₂ k.Openers (s.rawOpeners tag text pos limit)
      (s.rawOpeners tag text' pos' limit') := by
    refine forall₂_filterMap fun m hm => ?_
    split
    · next h =>
      have hfilter := filter_lt ((hraw m hm h.1).1 hpos) hlimit
      generalize Option.filter _ (m.opener.pattern.find? text pos) = o,
        Option.filter _ (m.opener.pattern.find? text' pos') = o' at hfilter
      cases hfilter with
      | none => exact .none
      | some ho => exact .some ⟨rfl, ho⟩
    · exact .none
  have hfirst := earliest hopeners
  have hmem {x : TagMatcher × Pattern.Match}
      (h : TagScanner.earliest (s.rawOpeners tag text pos limit) = some x) :
      x.1 ∈ s.matchers ∧ x.1.tag.rawBody = true := by
    obtain ⟨m, hm, hx⟩ := List.mem_filterMap.mp (mem_of_earliest h)
    split at hx
    · next hcond =>
      obtain ⟨_, _, rfl⟩ := Option.map_eq_some_iff.mp hx
      exact ⟨hm, hcond.1⟩
    · cases hx
  unfold TagScanner.skipRaw
  generalize TagScanner.earliest (s.rawOpeners tag text pos limit) = x,
    TagScanner.earliest (s.rawOpeners tag text' pos' limit') = x' at hfirst hmem
  cases hfirst with
  | none => exact .none
  | @some x x' hx =>
      obtain ⟨m, o⟩ := x
      obtain ⟨_, o'⟩ := x'
      obtain ⟨rfl, ho⟩ := hx
      obtain ⟨hm, hbody⟩ := hmem rfl
      have hclose := plainCloser? hopener hcloser hm (hraw _ hm hbody) ho.stop
      rw [Option.bind_some, Option.bind_some]
      dsimp only
      generalize TagScanner.plainCloser? _ text o.stop = r,
        TagScanner.plainCloser? _ text' o'.stop = r' at hclose
      cases hclose with
      | none => exact .none
      | some hr => exact .some hr.2

/-- The closing tag of a block in one text corresponds to that in the other. -/
theorem closer? (hraw : k.KnowsRaw s text text') {m : TagMatcher} (hm : m ∈ s.matchers)
    (hk : k.Knows text text' m) {pos pos' : Nat} (hpos : k.faces pos pos') :
    Option.Rel k.Closers (s.closer? m text pos) (s.closer? m text' pos') := by
  rw [closer?_eq, closer?_eq]
  cases hc : m.closer with
  | none => exact .none
  | some c =>
      have hopens := hopener m hm (by rw [hc]; rfl)
      have hcloses := hcloser m hm c hc
      have hskips : k.SkipsAlike (s.skipped m text) (s.skipped m text') := by
        unfold skipped
        split
        · exact fun _ _ => .none
        · exact skipsAlike_skipRaw hopener hcloser hraw _
      have hahead := skipsAhead_skipped hopener hcloser m
      exact balance hk.1 (hk.2 c hc) hskips (hopens text) (hcloses text) (hahead text)
        (hopens text') (hcloses text') (hahead text') hpos 0

end scanner

end Track

end TagTemplate
