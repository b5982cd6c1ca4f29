import TagTemplate.Proofs.Scanning.Builtin
import TagTemplate.Proofs.Scanning.Clock

/-! # Closing tags as brackets

The search for the closing tag of a block meets opening and closing tags of that block, and raw
blocks of other tags that it steps over.  It ends at the first closing tag at which more blocks have
been closed than opened.

* `OpensFirst`, `StepsOver`, `Meets`: what is met next, said of the patterns alone.
* `Scans`: what is met on the way, one after another.
* `closer?_balances`: the closing tag of a block is the one at which the brackets balance. -/

namespace TagTemplate

/-- What the search for a closing tag meets: an opening or a closing tag of the block, or a raw
block of another tag. -/
inductive Landmark where
  | opening (start stop : Nat)
  | closing (start stop : Nat)
  | raw (start stop : Nat)
deriving DecidableEq, Repr

namespace Landmark

/-- Where the tag or the raw block begins. -/
def start : Landmark → Nat
  | opening start _ => start
  | closing start _ => start
  | raw start _ => start

/-- Where the tag or the raw block ends, and the search goes on. -/
def stop : Landmark → Nat
  | opening _ stop => stop
  | closing _ stop => stop
  | raw _ stop => stop

def openings : List Landmark → Nat
  | [] => 0
  | opening _ _ :: ws => openings ws + 1
  | _ :: ws => openings ws

def closings : List Landmark → Nat
  | [] => 0
  | closing _ _ :: ws => closings ws + 1
  | _ :: ws => closings ws

theorem openings_append (ws vs : List Landmark) :
    openings (ws ++ vs) = openings ws + openings vs := by
  induction ws with
  | nil => simp [openings]
  | cons w ws ih => cases w <;> simp [openings, ih, Nat.add_right_comm]

theorem closings_append (ws vs : List Landmark) :
    closings (ws ++ vs) = closings ws + closings vs := by
  induction ws with
  | nil => simp [closings]
  | cons w ws ih => cases w <;> simp [closings, ih, Nat.add_right_comm]

/-- Nowhere on the way have more blocks been closed than opened, of which `depth` were open
before. -/
def Covered (depth : Nat) (ws : List Landmark) : Prop :=
  ∀ vs, vs <+: ws → closings vs ≤ openings vs + depth

theorem covered_nil (depth : Nat) : Covered depth [] := by
  intro vs hvs
  rw [List.prefix_nil.mp hvs]
  exact Nat.zero_le _

/-- A tag at the front changes the number of blocks that are open before the others. -/
theorem covered_cons {depth : Nat} {w : Landmark} {ws : List Landmark} :
    Covered depth (w :: ws) ↔
      match w with
      | opening _ _ => Covered (depth + 1) ws
      | closing _ _ => 0 < depth ∧ Covered (depth - 1) ws
      | raw _ _ => Covered depth ws := by
  have hcons : Covered depth (w :: ws) ↔
      ∀ vs, vs <+: ws → closings (w :: vs) ≤ openings (w :: vs) + depth := by
    constructor
    · exact fun h vs hvs => h (w :: vs) ((List.prefix_cons_inj w).mpr hvs)
    · intro h vs hvs
      rcases List.prefix_cons_iff.mp hvs with rfl | ⟨us, rfl, hus⟩
      · exact Nat.zero_le _
      · exact h us hus
  rw [hcons]
  cases w with
  | opening => exact forall₂_congr fun vs _ => by simp only [openings, closings]; omega
  | raw => exact Iff.rfl
  | closing =>
      simp only [openings, closings]
      constructor
      · intro h
        have hpos := h [] List.nil_prefix
        simp only [openings, closings] at hpos
        exact ⟨by omega, fun vs hvs => by have := h vs hvs; omega⟩
      · rintro ⟨hpos, h⟩ vs hvs
        have := h vs hvs
        omega

end Landmark

namespace TagScanner

open Landmark

variable {s : TagScanner} {m : TagMatcher} {c : Pattern} {text : Array Char} {pos : Nat}

/-! ### What is met next -/

/-- The next raw block of another tag opens with the match `o` of `r`: no other one opens before,
and of those that open at the same place it comes first in the set. -/
structure OpensFirst (s : TagScanner) (tag : String) (text : Array Char) (pos : Nat)
    (r : TagMatcher) (o : Pattern.Match) : Prop where
  raw : r.tag.rawBody = true
  other : r.tag.name ≠ tag
  opens : r.opener.pattern.find? text pos = some o
  first : ∃ before after, s.matchers = before ++ r :: after ∧
    (∀ q ∈ before, q.tag.rawBody = true → q.tag.name ≠ tag →
      ∀ x, q.opener.pattern.find? text pos = some x → o.start < x.start) ∧
    ∀ q ∈ after, q.tag.rawBody = true → q.tag.name ≠ tag →
      ∀ x, q.opener.pattern.find? text pos = some x → o.start ≤ x.start

/-- Looking for the closing pattern `c` of the block tag `m`, which is not raw, the search steps
over a raw block of another tag: the next one, which opens before the next tags of `m`, if it is
closed. -/
def StepsOver (s : TagScanner) (m : TagMatcher) (c : Pattern) (text : Array Char)
    (pos start stop : Nat) : Prop :=
  m.tag.rawBody = false ∧ ∃ r o close first, s.OpensFirst m.tag.name text pos r o ∧
    c.find? text pos = some close ∧ o.start < close.start ∧
    (∀ x, m.opener.pattern.find? text pos = some x → o.start < x.start) ∧
    s.closer? r text o.stop = some (first, stop) ∧ start = o.start

/-- What the search for the closing pattern `c` of the block tag `m` meets next: a raw block to step
over, or else the tag of `m` that comes first, a closing tag before an opening tag at the same
place.  There is nothing to be met where no closing tag follows. -/
inductive Meets (s : TagScanner) (m : TagMatcher) (c : Pattern) (text : Array Char) (pos : Nat) :
    Landmark → Prop
  | raw {start stop : Nat} (h : s.StepsOver m c text pos start stop) :
    Meets s m c text pos (.raw start stop)
  | opening {close o : Pattern.Match} (hclose : c.find? text pos = some close)
    (hopen : m.opener.pattern.find? text pos = some o) (hlt : o.start < close.start)
    (hraw : ∀ start stop, ¬ s.StepsOver m c text pos start stop) :
    Meets s m c text pos (.opening o.start o.stop)
  | closing {close : Pattern.Match} (hclose : c.find? text pos = some close)
    (hopen : ∀ o, m.opener.pattern.find? text pos = some o → close.start ≤ o.start)
    (hraw : ∀ start stop, ¬ s.StepsOver m c text pos start stop) :
    Meets s m c text pos (.closing close.start close.stop)

/-- What the search meets on the way from one position to another. -/
inductive Scans (s : TagScanner) (m : TagMatcher) (c : Pattern) (text : Array Char) :
    Nat → List Landmark → Nat → Prop
  | done (pos : Nat) : Scans s m c text pos [] pos
  | step {pos stop : Nat} {w : Landmark} {ws : List Landmark} (hw : s.Meets m c text pos w)
    (hws : Scans s m c text w.stop ws stop) : Scans s m c text pos (w :: ws) stop

/-! ### The first raw block -/

theorem earliest_ne_none {x : TagMatcher × Pattern.Match} {l : List (TagMatcher × Pattern.Match)} :
    earliest (x :: l) ≠ none := by
  rw [earliest]
  cases earliest l with
  | none => simp
  | some y =>
      dsimp only
      split <;> simp

/-- The one that opens first comes before all others, and in the list before those that open at the
same place. -/
theorem earliest_eq_some_iff {l : List (TagMatcher × Pattern.Match)}
    {x : TagMatcher × Pattern.Match} :
    earliest l = some x ↔ ∃ before after, l = before ++ x :: after ∧
      (∀ y ∈ before, x.2.start < y.2.start) ∧ ∀ y ∈ after, x.2.start ≤ y.2.start := by
  constructor
  · induction l generalizing x with
    | nil => exact fun h => by cases h
    | cons a l ih =>
        intro h
        rw [earliest] at h
        cases hl : earliest l with
        | none =>
            rw [hl] at h
            cases h
            cases l with
            | nil => exact ⟨[], [], rfl, by simp, by simp⟩
            | cons b l => exact absurd hl earliest_ne_none
        | some b =>
            obtain ⟨before, after, rfl, hbefore, hafter⟩ := ih hl
            rw [hl] at h
            dsimp only at h
            split at h
            · next hlt =>
              cases h
              exact ⟨a :: before, after, rfl, List.forall_mem_cons.mpr ⟨hlt, hbefore⟩, hafter⟩
            · next hge =>
              cases h
              refine ⟨[], before ++ b :: after, rfl, by simp, fun y hy => ?_⟩
              rcases List.mem_append.mp hy with hy | hy
              · have := hbefore y hy
                omega
              · rcases List.mem_cons.mp hy with rfl | hy
                · omega
                · have := hafter y hy
                  omega
  · rintro ⟨before, after, rfl, hbefore, hafter⟩
    induction before with
    | nil =>
        rw [List.nil_append, earliest]
        cases hl : earliest after with
        | none => rfl
        | some b =>
            have hle := hafter b (mem_of_earliest hl)
            simp only [if_neg (Nat.not_lt.mpr hle)]
    | cons a before ih =>
        obtain ⟨ha, hbefore⟩ := List.forall_mem_cons.mp hbefore
        rw [List.cons_append, earliest, ih hbefore]
        simp only [if_pos ha]

/-- The place where a tag opens a raw block to step over, from `pos` on and before the limit. -/
def rawOpener? (tag : String) (text : Array Char) (pos limit : Nat) (q : TagMatcher) :
    Option (TagMatcher × Pattern.Match) :=
  if q.tag.rawBody ∧ q.tag.name ≠ tag then
    ((q.opener.pattern.find? text pos).filter fun o => o.start < limit).map (q, ·)
  else none

theorem rawOpener?_eq_some_iff {tag : String} {limit : Nat} {q : TagMatcher}
    {y : TagMatcher × Pattern.Match} :
    rawOpener? tag text pos limit q = some y ↔ q.tag.rawBody = true ∧ q.tag.name ≠ tag ∧
      q.opener.pattern.find? text pos = some y.2 ∧ y.2.start < limit ∧ y.1 = q := by
  obtain ⟨q', x⟩ := y
  unfold rawOpener?
  split
  · next h =>
    rw [Option.map_eq_some_iff]
    constructor
    · rintro ⟨o, ho, heq⟩
      cases heq
      obtain ⟨hfind, hlt⟩ := Option.filter_eq_some_iff.mp ho
      exact ⟨h.1, h.2, hfind, by simpa using hlt, rfl⟩
    · rintro ⟨_, _, hfind, hlt, rfl⟩
      exact ⟨x, Option.filter_eq_some_iff.mpr ⟨hfind, by simpa using hlt⟩, rfl⟩
  · next h => exact ⟨(nomatch ·), fun ⟨h₁, h₂, _⟩ => absurd ⟨h₁, h₂⟩ h⟩

theorem earliest_rawOpeners_iff {tag : String} {limit : Nat} {r : TagMatcher}
    {o : Pattern.Match} :
    earliest (s.rawOpeners tag text pos limit) = some (r, o) ↔
      s.OpensFirst tag text pos r o ∧ o.start < limit := by
  have hopeners : s.rawOpeners tag text pos limit =
      s.matchers.filterMap (rawOpener? tag text pos limit) := rfl
  rw [hopeners, earliest_eq_some_iff]
  constructor
  · rintro ⟨before, after, hsplit, hbefore, hafter⟩
    obtain ⟨front, tail, hmatchers, rfl, htail⟩ := List.filterMap_eq_append_iff.mp hsplit
    obtain ⟨middle, r', back, rfl, hmiddle, hr, rfl⟩ := List.filterMap_eq_cons_iff.mp htail
    obtain ⟨hraw, hother, hopens, hlt, rfl⟩ := rawOpener?_eq_some_iff.mp hr
    refine ⟨⟨hraw, hother, hopens, front ++ middle, back, ?_, ?_, ?_⟩, hlt⟩
    · rw [hmatchers, List.append_assoc]
    · intro q hq hqraw hqother x hx
      rcases Nat.lt_or_ge x.start limit with hxlt | hxge
      · have hsome : rawOpener? tag text pos limit q = some (q, x) :=
          rawOpener?_eq_some_iff.mpr ⟨hqraw, hqother, hx, hxlt, rfl⟩
        rcases List.mem_append.mp hq with hq | hq
        · exact hbefore (q, x) (List.mem_filterMap.mpr ⟨q, hq, hsome⟩)
        · rw [hmiddle q hq] at hsome
          cases hsome
      · exact Nat.lt_of_lt_of_le hlt hxge
    · intro q hq hqraw hqother x hx
      rcases Nat.lt_or_ge x.start limit with hxlt | hxge
      · have hsome : rawOpener? tag text pos limit q = some (q, x) :=
          rawOpener?_eq_some_iff.mpr ⟨hqraw, hqother, hx, hxlt, rfl⟩
        exact hafter (q, x) (List.mem_filterMap.mpr ⟨q, hq, hsome⟩)
      · exact Nat.le_of_lt (Nat.lt_of_lt_of_le hlt hxge)
  · rintro ⟨⟨hraw, hother, hopens, before, after, hmatchers, hbefore, hafter⟩, hlt⟩
    have hr : rawOpener? tag text pos limit r = some (r, o) :=
      rawOpener?_eq_some_iff.mpr ⟨hraw, hother, hopens, hlt, rfl⟩
    refine ⟨before.filterMap (rawOpener? tag text pos limit),
      after.filterMap (rawOpener? tag text pos limit), ?_, fun y hy => ?_, fun y hy => ?_⟩
    · rw [hmatchers, List.filterMap_append, List.filterMap_cons_some hr]
    · obtain ⟨q, hq, hy⟩ := List.mem_filterMap.mp hy
      obtain ⟨hqraw, hqother, hx, _⟩ := rawOpener?_eq_some_iff.mp hy
      exact hbefore q hq hqraw hqother y.2 hx
    · obtain ⟨q, hq, hy⟩ := List.mem_filterMap.mp hy
      obtain ⟨hqraw, hqother, hx, _⟩ := rawOpener?_eq_some_iff.mp hy
      exact hafter q hq hqraw hqother y.2 hx

theorem skipped_eq_some_iff {limit stop : Nat} :
    s.skipped m text pos limit = some stop ↔ m.tag.rawBody = false ∧ ∃ r o first,
      s.OpensFirst m.tag.name text pos r o ∧ o.start < limit ∧
        s.closer? r text o.stop = some (first, stop) := by
  have hcloser {r : TagMatcher} (hraw : r.tag.rawBody = true) (p : Nat) :
      s.closer? r text p = plainCloser? r text p := by
    rw [closer?, if_pos hraw]
  unfold skipped
  split
  · next hraw =>
    refine ⟨(nomatch ·), fun h => ?_⟩
    rw [hraw] at h
    exact absurd h.1 (by decide)
  · next hraw =>
    rw [skipRaw, Option.bind_eq_some_iff]
    constructor
    · rintro ⟨⟨r, o⟩, hearliest, hmap⟩
      obtain ⟨hfirst, hlt⟩ := earliest_rawOpeners_iff.mp hearliest
      obtain ⟨⟨first, last⟩, hplain, rfl⟩ := Option.map_eq_some_iff.mp hmap
      exact ⟨by simpa using hraw, r, o, first, hfirst, hlt, by rw [hcloser hfirst.raw, hplain]⟩
    · rintro ⟨_, r, o, first, hfirst, hlt, hclosed⟩
      refine ⟨(r, o), earliest_rawOpeners_iff.mpr ⟨hfirst, hlt⟩, ?_⟩
      rw [hcloser hfirst.raw] at hclosed
      dsimp only
      rw [hclosed]
      rfl

/-! ### One round of the search -/

theorem lt_limit_iff {next : Option Pattern.Match} {first limit : Nat} :
    first < next.elim limit (fun o => min o.start limit) ↔
      first < limit ∧ ∀ o, next = some o → first < o.start := by
  cases next with
  | none => simp
  | some o =>
      simp only [Option.elim_some, Option.some.injEq, forall_eq']
      omega

/-- Where the search stands before the closing tag `close`, it steps over the raw block that opens
first, up to the next tag of the block. -/
theorem stepsOver_iff {close : Pattern.Match} (hclose : c.find? text pos = some close)
    {start stop : Nat} :
    s.StepsOver m c text pos start stop ↔ ∃ r o first, m.tag.rawBody = false ∧
      earliest (s.rawOpeners m.tag.name text pos ((m.opener.pattern.find? text pos).elim close.start
        fun o => min o.start close.start)) = some (r, o) ∧
      s.closer? r text o.stop = some (first, stop) ∧ start = o.start := by
  constructor
  · rintro ⟨hplain, r, o, close', first, hfirst, hclose', hlt, hbefore, hclosed, hstart⟩
    rw [hclose] at hclose'
    cases hclose'
    have hlimit := lt_limit_iff.mpr ⟨hlt, hbefore⟩
    exact ⟨r, o, first, hplain, earliest_rawOpeners_iff.mpr ⟨hfirst, hlimit⟩, hclosed, hstart⟩
  · rintro ⟨r, o, first, hplain, hearliest, hclosed, hstart⟩
    obtain ⟨hfirst, hlimit⟩ := earliest_rawOpeners_iff.mp hearliest
    obtain ⟨hlt, hbefore⟩ := lt_limit_iff.mp hlimit
    exact ⟨hplain, r, o, close, first, hfirst, hclose, hlt, hbefore, hclosed, hstart⟩

theorem skipped_of_stepsOver {close : Pattern.Match} (hclose : c.find? text pos = some close)
    {stop : Nat} :
    s.skipped m text pos ((m.opener.pattern.find? text pos).elim close.start
        fun o => min o.start close.start) = some stop ↔
      ∃ start, s.StepsOver m c text pos start stop := by
  rw [skipped_eq_some_iff]
  simp only [stepsOver_iff hclose, earliest_rawOpeners_iff]
  constructor
  · rintro ⟨hplain, r, o, first, hfirst, hlt, hclosed⟩
    exact ⟨o.start, r, o, first, hplain, ⟨hfirst, hlt⟩, hclosed, rfl⟩
  · rintro ⟨start, r, o, first, hplain, ⟨hfirst, hlt⟩, hclosed, _⟩
    exact ⟨hplain, r, o, first, hfirst, hlt, hclosed⟩

theorem StepsOver.exists_find? {start stop : Nat} (h : s.StepsOver m c text pos start stop) :
    ∃ close, c.find? text pos = some close := by
  obtain ⟨_, _, _, close, _, _, hclose, _⟩ := h
  exact ⟨close, hclose⟩

theorem StepsOver.unique {start stop start' stop' : Nat}
    (h : s.StepsOver m c text pos start stop) (h' : s.StepsOver m c text pos start' stop') :
    start = start' ∧ stop = stop' := by
  obtain ⟨close, hclose⟩ := h.exists_find?
  obtain ⟨r, o, first, _, hearliest, hclosed, rfl⟩ := (stepsOver_iff hclose).mp h
  obtain ⟨r', o', first', _, hearliest', hclosed', rfl⟩ := (stepsOver_iff hclose).mp h'
  rw [hearliest] at hearliest'
  cases hearliest'
  rw [hclosed] at hclosed'
  cases hclosed'
  exact ⟨rfl, rfl⟩

theorem Meets.unique {w w' : Landmark} (h : s.Meets m c text pos w)
    (h' : s.Meets m c text pos w') : w = w' := by
  cases h with
  | raw hover =>
      cases h' with
      | raw hover' =>
          obtain ⟨rfl, rfl⟩ := hover.unique hover'
          rfl
      | opening _ _ _ hraw => exact absurd hover (hraw _ _)
      | closing _ _ hraw => exact absurd hover (hraw _ _)
  | opening hclose hopen hlt hraw =>
      cases h' with
      | raw hover => exact absurd hover (hraw _ _)
      | opening hclose' hopen' =>
          rw [hopen] at hopen'
          cases hopen'
          rfl
      | closing hclose' hopen' =>
          rw [hclose] at hclose'
          cases hclose'
          exact absurd (hopen' _ hopen) (Nat.not_le.mpr hlt)
  | closing hclose hopen hraw =>
      cases h' with
      | raw hover => exact absurd hover (hraw _ _)
      | opening hclose' hopen' hlt =>
          rw [hclose] at hclose'
          cases hclose'
          exact absurd (hopen _ hopen') (Nat.not_le.mpr hlt)
      | closing hclose' =>
          rw [hclose] at hclose'
          cases hclose'
          rfl

theorem exists_meets {close : Pattern.Match} (hclose : c.find? text pos = some close) :
    ∃ w, s.Meets m c text pos w := by
  by_cases hraw : ∃ start stop, s.StepsOver m c text pos start stop
  · obtain ⟨start, stop, hover⟩ := hraw
    exact ⟨_, .raw hover⟩
  · have hraw : ∀ start stop, ¬ s.StepsOver m c text pos start stop :=
      fun start stop hover => hraw ⟨start, stop, hover⟩
    by_cases hopen : ∃ o, m.opener.pattern.find? text pos = some o ∧ o.start < close.start
    · obtain ⟨o, ho, hlt⟩ := hopen
      exact ⟨_, .opening hclose ho hlt hraw⟩
    · exact ⟨_, .closing hclose (fun o ho => Nat.not_lt.mp fun hlt => hopen ⟨o, ho, hlt⟩) hraw⟩

theorem Meets.exists_find? {w : Landmark} (h : s.Meets m c text pos w) :
    ∃ close, c.find? text pos = some close := by
  cases h with
  | raw hover => exact hover.exists_find?
  | opening hclose => exact ⟨_, hclose⟩
  | closing hclose => exact ⟨_, hclose⟩

/-- What becomes of the number of open blocks: a closing tag where none is open ends the search. -/
theorem Meets.balanceNext_eq {w : Landmark} (h : s.Meets m c text pos w) (depth : Nat) :
    balanceNext m.opener.pattern c (s.skipped m text) text depth pos =
      match w with
      | .opening _ stop => some (depth + 1, stop)
      | .closing _ stop => if depth = 0 then none else some (depth - 1, stop)
      | .raw _ stop => some (depth, stop) := by
  obtain ⟨close, hclose⟩ := h.exists_find?
  have hnone (hraw : ∀ start stop, ¬ s.StepsOver m c text pos start stop) :
      s.skipped m text pos ((m.opener.pattern.find? text pos).elim close.start
        fun o => min o.start close.start) = none := by
    by_contra hne
    obtain ⟨stop, hstop⟩ := Option.ne_none_iff_exists'.mp hne
    obtain ⟨start, hover⟩ := (skipped_of_stepsOver hclose).mp hstop
    exact hraw start stop hover
  cases h with
  | raw hover =>
      simp only [balanceNext, hclose, (skipped_of_stepsOver hclose).mpr ⟨_, hover⟩]
  | opening hclose' hopen hlt hraw =>
      rw [hclose] at hclose'
      cases hclose'
      have hfilter : ((m.opener.pattern.find? text pos).filter fun o => o.start < close.start) =
          some _ := Option.filter_eq_some_iff.mpr ⟨hopen, decide_eq_true hlt⟩
      simp only [balanceNext, hclose, hnone hraw, hfilter]
  | closing hclose' hopen hraw =>
      rw [hclose] at hclose'
      cases hclose'
      have hfilter : ((m.opener.pattern.find? text pos).filter fun o => o.start < close.start) =
          none := by
        refine Option.filter_eq_none_iff.mpr fun o ho => ?_
        simpa using hopen o ho
      simp only [balanceNext, hclose, hnone hraw, hfilter]

/-! ### The whole search -/

/-- No match of the patterns of the tags is empty. -/
def NeverEmpty (s : TagScanner) : Prop :=
  ∀ m ∈ s.matchers, ∀ p ∈ m.patterns, ∀ (text : Array Char) (start : Nat) (x : Pattern.Match),
    p.find? text start = some x → x.start < x.stop

section rounds
variable (h : s.NeverEmpty)
include h

theorem NeverEmpty.takes (hm : m ∈ s.matchers) {p : Pattern} (hp : p ∈ m.patterns)
    (text : Array Char) : Takes p text := by
  intro start x hx
  have hbounds := Pattern.bounds_of_find? hx
  have hlt := h m hm p hp text start x hx
  omega

theorem NeverEmpty.takes_opener : ∀ m ∈ s.matchers, m.closer.isSome → ∀ text,
    Takes m.opener.pattern text :=
  fun _ hm _ text => h.takes hm List.mem_cons_self text

theorem NeverEmpty.takes_closer : ∀ m ∈ s.matchers, ∀ c, m.closer = some c → ∀ text,
    Takes c.pattern text :=
  fun m hm c hc text => h.takes hm (by simp [TagMatcher.patterns, hc]) text

theorem NeverEmpty.skipsAhead (m : TagMatcher) (text : Array Char) :
    SkipsAhead (s.skipped m text) text :=
  skipsAhead_skipped h.takes_opener h.takes_closer m text

variable (hm : m ∈ s.matchers) {f : Fragment} (hf : m.closer = some f)
include hm hf

theorem Meets.bounds {w : Landmark} (hw : s.Meets m f.pattern text pos w) :
    pos ≤ w.start ∧ w.start < w.stop ∧ w.stop ≤ text.size := by
  have ho := h.takes hm List.mem_cons_self text
  have hc := h.takes_closer m hm f hf text
  cases hw with
  | raw hover =>
      obtain ⟨_, r, o, _, first, hfirst, _, _, _, hclosed, rfl⟩ := hover
      obtain ⟨before, after, hmatchers, _⟩ := hfirst.first
      have hr : r ∈ s.matchers := by simp [hmatchers]
      have hopener := h.takes hr List.mem_cons_self text pos o hfirst.opens
      have hcloser := bounds_of_closer? h.takes_opener h.takes_closer hr hclosed
      simp only [start, stop]
      omega
  | opening _ hopen => exact ho pos _ hopen
  | closing hclose => exact hc pos _ hclose

theorem Meets.balance_eq {w : Landmark} (hw : s.Meets m f.pattern text pos w) (depth : Nat) :
    balance m.opener.pattern f.pattern (s.skipped m text) text depth pos =
      match w with
      | .opening _ stop =>
        balance m.opener.pattern f.pattern (s.skipped m text) text (depth + 1) stop
      | .closing start stop =>
        if depth = 0 then some (start, stop)
        else balance m.opener.pattern f.pattern (s.skipped m text) text (depth - 1) stop
      | .raw _ stop => balance m.opener.pattern f.pattern (s.skipped m text) text depth stop := by
  rw [TagScanner.balance_eq (h.takes hm List.mem_cons_self text) (h.takes_closer m hm f hf text)
    (h.skipsAhead m text), hw.balanceNext_eq depth]
  cases hw with
  | raw | opening => rfl
  | closing hclose =>
      by_cases hd : depth = 0
      · simp only [if_pos hd]
        rw [hclose]
        rfl
      · simp only [if_neg hd]

/-- Running through what it meets, the search keeps count of the blocks that are open. -/
theorem Scans.balance_eq {ws : List Landmark} {stop depth : Nat}
    (hws : s.Scans m f.pattern text pos ws stop) (hcov : Covered depth ws) :
    balance m.opener.pattern f.pattern (s.skipped m text) text depth pos =
      balance m.opener.pattern f.pattern (s.skipped m text) text
        (depth + openings ws - closings ws) stop := by
  induction hws generalizing depth with
  | done => rfl
  | step hw _ ih =>
      rw [hw.balance_eq h hm hf]
      have hcov := covered_cons.mp hcov
      cases hw with
      | opening =>
          refine (ih hcov).trans ?_
          congr 1
          simp only [openings, closings]
          omega
      | closing =>
          refine (if_neg (Nat.ne_of_gt hcov.1)).trans ((ih hcov.2).trans ?_)
          congr 1
          simp only [openings, closings]
          omega
      | raw => exact ih hcov

/-- From every place the search goes on to where no closing tag is left or to the first closing tag
at which more blocks have been closed than opened. -/
theorem exists_scans : ∀ (n depth pos : Nat), text.size - pos < n →
    ∃ ws stop, s.Scans m f.pattern text pos ws stop ∧ Covered depth ws ∧
      (f.pattern.find? text stop = none ∨ closings ws = openings ws + depth ∧
        ∃ first last, s.Meets m f.pattern text stop (.closing first last))
  | 0, _, _, hn => absurd hn (Nat.not_lt_zero _)
  | n + 1, depth, pos, hn => by
      cases hclose : f.pattern.find? text pos with
      | none => exact ⟨[], pos, .done pos, covered_nil depth, .inl hclose⟩
      | some close =>
          obtain ⟨w, hw⟩ := exists_meets (s := s) (m := m) hclose
          have hbounds := hw.bounds h hm hf
          -- what is met, followed by what is met from its end on
          have hfurther (depth' : Nat) (hcons : ∀ ws, Covered depth' ws → Covered depth (w :: ws))
              (hcount : ∀ ws, closings ws = openings ws + depth' →
                closings (w :: ws) = openings (w :: ws) + depth) :
              ∃ ws stop, s.Scans m f.pattern text pos ws stop ∧ Covered depth ws ∧
                (f.pattern.find? text stop = none ∨ closings ws = openings ws + depth ∧
                  ∃ first last, s.Meets m f.pattern text stop (.closing first last)) := by
            obtain ⟨ws, stop, hws, hcov, hend⟩ := exists_scans n depth' w.stop (by omega)
            exact ⟨w :: ws, stop, .step hw hws, hcons ws hcov,
              hend.imp_right fun ⟨heq, hlast⟩ => ⟨hcount ws heq, hlast⟩⟩
          cases w with
          | opening =>
              refine hfurther (depth + 1) (fun ws hcov => covered_cons.mpr hcov) fun ws heq => ?_
              simp only [openings, closings]
              omega
          | raw => exact hfurther depth (fun ws hcov => covered_cons.mpr hcov) fun ws heq => heq
          | closing first last =>
              rcases Nat.eq_zero_or_pos depth with rfl | hpos
              · exact ⟨[], pos, .done pos, covered_nil 0, .inr ⟨rfl, first, last, hw⟩⟩
              · refine hfurther (depth - 1) (fun ws hcov => covered_cons.mpr ⟨hpos, hcov⟩)
                  fun ws heq => ?_
                simp only [openings, closings]
                omega

theorem Scans.length_le {ws : List Landmark} {stop : Nat}
    (hws : s.Scans m f.pattern text pos ws stop) : ws.length ≤ text.size - pos := by
  induction hws with
  | done => exact Nat.zero_le _
  | step hw _ ih =>
      have := hw.bounds h hm hf
      rw [List.length_cons]
      omega

theorem Scans.bounds {ws : List Landmark} {stop : Nat}
    (hws : s.Scans m f.pattern text pos ws stop) :
    pos ≤ stop ∧ ∀ w ∈ ws, w.stop ≤ stop := by
  induction hws with
  | done => exact ⟨Nat.le_refl _, fun _ hw => nomatch hw⟩
  | step hw _ ih =>
      have := hw.bounds h hm hf
      exact ⟨by omega, List.forall_mem_cons.mpr ih⟩

/-- The search finds the closing tag if the brackets balance there. -/
theorem Scans.closer?_closing {ws : List Landmark} {stop first last : Nat}
    (hws : s.Scans m f.pattern text pos ws stop) (hcov : Covered 0 ws)
    (hcount : closings ws = openings ws)
    (hlast : s.Meets m f.pattern text stop (.closing first last)) :
    s.closer? m text pos = some (first, last) := by
  rw [closer?_eq, hf, Option.bind_some, hws.balance_eq h hm hf hcov, hlast.balance_eq h hm hf]
  exact if_pos (by omega)

theorem Scans.closer?_none {ws : List Landmark} {stop : Nat}
    (hws : s.Scans m f.pattern text pos ws stop) (hcov : Covered 0 ws)
    (hnone : f.pattern.find? text stop = none) : s.closer? m text pos = none := by
  rw [closer?_eq, hf, Option.bind_some, hws.balance_eq h hm hf hcov, balance, hnone]

end rounds

/-- Of two ways that begin at one place, one goes on where the other ends. -/
theorem Scans.prefix_or_prefix {ws vs : List Landmark} {stop stop' : Nat}
    (hws : s.Scans m c text pos ws stop) (hvs : s.Scans m c text pos vs stop') :
    ws <+: vs ∨ vs <+: ws := by
  induction hws generalizing vs with
  | done => exact .inl List.nil_prefix
  | step hw _ ih =>
      cases hvs with
      | done => exact .inr List.nil_prefix
      | step hv hvs =>
          obtain rfl := hw.unique hv
          exact (ih hvs).imp (List.prefix_cons_inj _).mpr (List.prefix_cons_inj _).mpr

theorem scans_concat_iff {ws : List Landmark} {w : Landmark} {stop : Nat} :
    s.Scans m c text pos (ws ++ [w]) stop ↔
      ∃ mid, s.Scans m c text pos ws mid ∧ s.Meets m c text mid w ∧ w.stop = stop := by
  constructor
  · induction ws generalizing pos with
    | nil =>
        intro h
        cases h with
        | step hw hdone =>
            cases hdone
            exact ⟨pos, .done pos, hw, rfl⟩
    | cons v ws ih =>
        intro h
        cases h with
        | step hv hws =>
            obtain ⟨mid, hws, hw, hstop⟩ := ih hws
            exact ⟨mid, .step hv hws, hw, hstop⟩
  · rintro ⟨mid, hws, hw, rfl⟩
    induction hws with
    | done => exact .step hw (.done _)
    | step hv _ ih => exact .step hv (ih hw)

/-- The search for the closing tag of a block ends at the first closing tag at which more blocks
have been closed than opened, and finds nothing exactly if no closing tag is left before.  What is
met on the way is settled by the place where the search begins, lies before the closing tag found,
raw blocks of other tags included, and there are no more such things than characters, so the rounds
of the search are counted by the text. -/
theorem closer?_balances {s : TagScanner} (hs : s.NeverEmpty) {m : TagMatcher}
    (hm : m ∈ s.matchers) {f : Fragment} (hf : m.closer = some f) (text : Array Char) (pos : Nat) :
    (∀ first last, s.closer? m text pos = some (first, last) ↔
      ∃ ws, s.Scans m f.pattern text pos (ws ++ [.closing first last]) last ∧
        openings (ws ++ [.closing first last]) < closings (ws ++ [.closing first last]) ∧
        ∀ vs, vs <+: ws → closings vs ≤ openings vs) ∧
    (s.closer? m text pos = none ↔
      ∃ ws stop, s.Scans m f.pattern text pos ws stop ∧ f.pattern.find? text stop = none ∧
        ∀ vs, vs <+: ws → closings vs ≤ openings vs) ∧
    (∀ first last ws, s.Scans m f.pattern text pos (ws ++ [.closing first last]) last →
      pos ≤ first ∧ first < last ∧ last ≤ text.size ∧ ∀ w ∈ ws, w.stop ≤ first) ∧
    (∀ ws vs stop stop', s.Scans m f.pattern text pos ws stop →
      s.Scans m f.pattern text pos vs stop' → ws <+: vs ∨ vs <+: ws) ∧
    (∀ ws stop, s.Scans m f.pattern text pos ws stop → ws.length ≤ text.size - pos) ∧
    ∀ n, text.size < n → s.closerWithin n m text pos = some (s.closer? m text pos) := by
  have hcount (ws : List Landmark) (first last : Nat) :
      openings (ws ++ [.closing first last]) = openings ws ∧
        closings (ws ++ [.closing first last]) = closings ws + 1 :=
    ⟨openings_append ws _, closings_append ws _⟩
  have hsome (first last : Nat) (ws : List Landmark)
      (hscan : s.Scans m f.pattern text pos (ws ++ [.closing first last]) last)
      (hover : openings (ws ++ [.closing first last]) < closings (ws ++ [.closing first last]))
      (hcov : Covered 0 ws) : s.closer? m text pos = some (first, last) := by
    obtain ⟨mid, hws, hlast, _⟩ := scans_concat_iff.mp hscan
    have hle := hcov ws List.prefix_rfl
    rw [(hcount ws first last).1, (hcount ws first last).2] at hover
    exact hws.closer?_closing hs hm hf hcov (by omega) hlast
  obtain ⟨ws, stop, hws, hcov, hend⟩ := exists_scans hs hm hf _ 0 pos (Nat.lt_succ_self _)
  refine ⟨fun first last => ⟨fun h => ?_, fun ⟨ws, hscan, hover, hcov⟩ =>
      hsome first last ws hscan hover hcov⟩, ⟨fun h => ?_, fun ⟨ws, stop, hws, hnone, hcov⟩ =>
      hws.closer?_none hs hm hf hcov hnone⟩, fun first last ws hscan => ?_,
    fun ws vs stop stop' hws hvs => hws.prefix_or_prefix hvs,
    fun ws stop hws => hws.length_le hs hm hf,
    fun n hn => closerWithin_eq hs.takes_opener hs.takes_closer hm hn⟩
  · rcases hend with hnone | ⟨heq, first', last', hlast⟩
    · rw [hws.closer?_none hs hm hf hcov hnone] at h
      cases h
    · rw [hws.closer?_closing hs hm hf hcov heq hlast] at h
      cases h
      refine ⟨ws, scans_concat_iff.mpr ⟨stop, hws, hlast, rfl⟩, ?_, hcov⟩
      rw [(hcount ws first last).1, (hcount ws first last).2]
      omega
  · rcases hend with hnone | ⟨heq, first, last, hlast⟩
    · exact ⟨ws, stop, hws, hnone, hcov⟩
    · rw [hws.closer?_closing hs hm hf hcov heq hlast] at h
      cases h
  · obtain ⟨mid, hws, hlast, _⟩ := scans_concat_iff.mp hscan
    obtain ⟨hpos, hbefore⟩ := hws.bounds hs hm hf
    obtain ⟨hmid, hlt, hsize⟩ := hlast.bounds hs hm hf
    simp only [Landmark.start, Landmark.stop] at hmid hlt hsize
    exact ⟨by omega, hlt, hsize, fun w hw => Nat.le_trans (hbefore w hw) hmid⟩

theorem neverEmpty_builtin : builtin.NeverEmpty := by
  intro m hm p hp text start x hx
  obtain ⟨t, rfl⟩ := mem_matchers_builtin.mp hm
  have hsteady : ∀ p ∈ t.matcher.patterns, p.Steady := by
    cases t <;> decide
  have hproper := (hsteady p hp).proper (compiled_of_mem ofTags_builtin hm hp).2
  exact (takes_of_proper hproper text start x hx).2.1

/-- What stands inside a block: a comment with a closing tag in it, and a block. -/
def insideAwait : Array Char :=
  #['\x7b', '#', 'c', 'o', 'm', 'm', 'e', 'n', 't', '\x7d', '\x7b', '/', 'a', 'w', 'a', 'i', 't',
    '\x7d', '\x7b', '/', 'c', 'o', 'm', 'm', 'e', 'n', 't', '\x7d', '\x7b', '#', 'a', 'w', 'a', 'i',
    't', '\x7d', '\x7b', '/', 'a', 'w', 'a', 'i', 't', '\x7d', '\x7b', '/', 'a', 'w', 'a', 'i', 't',
    '\x7d']

theorem closer?_balances_insideAwait :
    builtin.NeverEmpty ∧ BuiltinTag.await.matcher ∈ builtin.matchers ∧
    ∃ f, BuiltinTag.await.matcher.closer = some f ∧
      builtin.closer? BuiltinTag.await.matcher insideAwait 0 = some (44, 52) ∧
      ∃ ws, builtin.Scans BuiltinTag.await.matcher f.pattern insideAwait 0
          (ws ++ [.closing 44 52]) 52 ∧
        openings (ws ++ [.closing 44 52]) < closings (ws ++ [.closing 44 52]) ∧
        ∀ vs, vs <+: ws → closings vs ≤ openings vs := by
  have hm : BuiltinTag.await.matcher ∈ builtin.matchers := mem_matchers_builtin.mpr ⟨.await, rfl⟩
  obtain ⟨f, hf⟩ : ∃ f, BuiltinTag.await.matcher.closer = some f := ⟨_, rfl⟩
  obtain ⟨hsome, _, _, _, _, hwithin⟩ := closer?_balances neverEmpty_builtin hm hf insideAwait 0
  have hclose : builtin.closer? BuiltinTag.await.matcher insideAwait 0 = some (44, 52) := by
    have hread : builtin.closerWithin 53 BuiltinTag.await.matcher insideAwait 0 =
        some (some (44, 52)) := by
      decide +kernel
    exact Option.some.inj ((hwithin 53 (by decide)).symm.trans hread)
  exact ⟨neverEmpty_builtin, hm, f, hf, hclose, (hsome 44 52).mp hclose⟩

end TagScanner

end TagTemplate
