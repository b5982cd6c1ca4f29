import TagTemplate.Proofs.Scanning.Balance
import TagTemplate.Proofs.Scanning.Nesting

/-! # The first closed raw block

The search for a closing tag is to step over the first raw block of another tag that is closed.  It
looks for the place where such a block opens first, over all tags, and asks only then whether that
one is closed.

* `OpensRaw`: a raw block of another tag opens within a window of the text.
* `TellsFirstClosed`: what the search is to be told, said without the search.
* `skipRaw_tellsFirstClosed_iff`: it is told this exactly if no raw block that is never closed opens
  before all those that are closed. -/

namespace TagTemplate

namespace TagScanner

variable {s : TagScanner} {tag : String} {text : Array Char} {pos limit : Nat}

/-! ### Raw blocks in a window -/

/-- A raw block of the tag of `r`, which is not `tag`, opens at `start`, from `pos` on and before
the limit; its inside begins at `inside`. -/
structure OpensRaw (s : TagScanner) (tag : String) (text : Array Char) (pos limit : Nat)
    (r : TagMatcher) (start inside : Nat) : Prop where
  mem : r ∈ s.matchers
  raw : r.tag.rawBody = true
  other : r.tag.name ≠ tag
  le : pos ≤ start
  lt : start < limit
  le_size : start ≤ text.size
  opens : ∃ t, r.opener.pattern.matchAt? text start = some t ∧ t.pos = inside

/-- The block of `r` whose inside begins at `inside` is closed. -/
def IsClosed (s : TagScanner) (text : Array Char) (r : TagMatcher) (inside : Nat) : Prop :=
  ∃ close, s.closer? r text inside = some close

/-- Of the raw blocks with `P` that open in the window, that of `r` is the first: no other one opens
before it, and of those that open at the same place it comes first in the set. -/
structure OpensRawFirst (s : TagScanner) (tag : String) (text : Array Char) (pos limit : Nat)
    (P : TagMatcher → Nat → Prop) (r : TagMatcher) (start inside : Nat) : Prop where
  opens : s.OpensRaw tag text pos limit r start inside
  holds : P r inside
  first : ∃ before after, s.matchers = before ++ r :: after ∧
    ∀ q start' inside', s.OpensRaw tag text pos limit q start' inside' → P q inside' →
      start ≤ start' ∧ (q ∈ before → start < start')

/-- What the search is to be told about the raw blocks that open in the window: where the first one
that is closed ends, or nothing if there is none. -/
def TellsFirstClosed (s : TagScanner) (tag : String) (text : Array Char) (pos limit : Nat) :
    Option Nat → Prop
  | some stop => ∃ r start inside close,
    s.OpensRawFirst tag text pos limit (s.IsClosed text) r start inside ∧
      s.closer? r text inside = some (close, stop)
  | none => ∀ r start inside, s.OpensRaw tag text pos limit r start inside →
    ¬ s.IsClosed text r inside

/-! ### The one that opens first -/

/-- A match found before the limit opens a raw block. -/
theorem opensRaw_of_find? {r : TagMatcher} {o : Pattern.Match} (hmem : r ∈ s.matchers)
    (hraw : r.tag.rawBody = true) (hother : r.tag.name ≠ tag)
    (hfind : r.opener.pattern.find? text pos = some o) (hlt : o.start < limit) :
    s.OpensRaw tag text pos limit r o.start o.stop := by
  obtain ⟨hle, hsize, hmatch, _⟩ := Pattern.find?_eq_some_iff.mp hfind
  exact ⟨hmem, hraw, hother, hle, hlt, hsize, _, hmatch, rfl⟩

/-- Where a raw block opens, a search for its tag finds it or an earlier one. -/
theorem OpensRaw.exists_find? {r : TagMatcher} {start inside : Nat}
    (h : s.OpensRaw tag text pos limit r start inside) :
    ∃ o, r.opener.pattern.find? text pos = some o ∧ o.start ≤ start := by
  obtain ⟨t, hmatch, _⟩ := h.opens
  cases hfind : r.opener.pattern.find? text pos with
  | none =>
      rw [Pattern.find?_eq_none_iff.mp hfind start h.le h.le_size] at hmatch
      cases hmatch
  | some o =>
      obtain ⟨_, _, _, hbefore⟩ := Pattern.find?_eq_some_iff.mp hfind
      refine ⟨o, rfl, Nat.not_lt.mp fun hlt => ?_⟩
      rw [hbefore start h.le hlt] at hmatch
      cases hmatch

section first
variable {r : TagMatcher} {start inside : Nat}

/-- The first raw block of all opens with the first match of its tag. -/
theorem OpensRawFirst.exists_find?
    (h : s.OpensRawFirst tag text pos limit (fun _ _ => True) r start inside) :
    ∃ o, r.opener.pattern.find? text pos = some o ∧ o.start = start ∧ o.stop = inside := by
  obtain ⟨hopens, -, before, after, -, hfirst⟩ := h
  obtain ⟨o, hfind, hle⟩ := hopens.exists_find?
  have hopens' : s.OpensRaw tag text pos limit r o.start o.stop :=
    opensRaw_of_find? hopens.mem hopens.raw hopens.other hfind (Nat.lt_of_le_of_lt hle hopens.lt)
  have hstart : o.start = start := Nat.le_antisymm hle (hfirst r _ _ hopens' trivial).1
  obtain ⟨t, hmatch, hinside⟩ := hopens.opens
  have hfound := (Pattern.find?_eq_some_iff.mp hfind).2.2.1
  rw [hstart, hmatch] at hfound
  exact ⟨o, hfind, hstart, by rw [← hinside, Option.some.inj hfound]⟩

/-- The first raw block of all is the one that opens first for the search, which looks at the next
one of each tag. -/
theorem OpensRawFirst.exists_opensFirst
    (h : s.OpensRawFirst tag text pos limit (fun _ _ => True) r start inside) :
    ∃ o, s.OpensFirst tag text pos r o ∧ o.start = start ∧ o.stop = inside := by
  obtain ⟨o, hfind, hstart, hstop⟩ := h.exists_find?
  obtain ⟨hopens, -, before, after, hsplit, hfirst⟩ := h
  -- a block that opens behind the window does not open before this one either
  have hothers {q : TagMatcher} (hq : q ∈ s.matchers) (hraw : q.tag.rawBody = true)
      (hother : q.tag.name ≠ tag) {x : Pattern.Match}
      (hx : q.opener.pattern.find? text pos = some x) :
      o.start ≤ x.start ∧ (q ∈ before → o.start < x.start) := by
    rw [hstart]
    rcases Nat.lt_or_ge x.start limit with hlt | hge
    · exact hfirst q _ _ (opensRaw_of_find? hq hraw hother hx hlt) trivial
    · have hbehind : start < x.start := Nat.lt_of_lt_of_le hopens.lt hge
      exact ⟨Nat.le_of_lt hbehind, fun _ => hbehind⟩
  refine ⟨o, ⟨hopens.raw, hopens.other, hfind, before, after, hsplit, ?_, ?_⟩, hstart, hstop⟩
  · intro q hq hraw hother x hx
    have hmem : q ∈ s.matchers := hsplit ▸ List.mem_append_left _ hq
    exact (hothers hmem hraw hother hx).2 hq
  · intro q hq hraw hother x hx
    have hmem : q ∈ s.matchers := hsplit ▸ List.mem_append_right _ (List.mem_cons_of_mem r hq)
    exact (hothers hmem hraw hother hx).1

/-- The one that opens first for the search is the first raw block of all. -/
theorem OpensFirst.opensRawFirst {o : Pattern.Match} (h : s.OpensFirst tag text pos r o)
    (hlt : o.start < limit) :
    s.OpensRawFirst tag text pos limit (fun _ _ => True) r o.start o.stop := by
  obtain ⟨hraw, hother, hfind, before, after, hsplit, hbefore, hafter⟩ := h
  have hmem : r ∈ s.matchers := hsplit ▸ List.mem_append_right _ List.mem_cons_self
  refine ⟨opensRaw_of_find? hmem hraw hother hfind hlt, trivial, before, after, hsplit, ?_⟩
  intro q start' inside' hq _
  obtain ⟨x, hx, hle⟩ := hq.exists_find?
  have hlater (hqmem : q ∈ before) : o.start < start' :=
    Nat.lt_of_lt_of_le (hbefore q hqmem hq.raw hq.other x hx) hle
  refine ⟨?_, hlater⟩
  have hqmem := hq.mem
  rw [hsplit] at hqmem
  rcases List.mem_append.mp hqmem with hqmem | hqmem
  · exact Nat.le_of_lt (hlater hqmem)
  · rcases List.mem_cons.mp hqmem with rfl | hqmem
    · rw [hfind] at hx
      cases hx
      exact hle
    · exact Nat.le_trans (hafter q hqmem hq.raw hq.other x hx) hle

/-- The search looks at the raw block that opens first. -/
theorem opensRawFirst_iff :
    s.OpensRawFirst tag text pos limit (fun _ _ => True) r start inside ↔
      ∃ o, earliest (s.rawOpeners tag text pos limit) = some (r, o) ∧
        o.start = start ∧ o.stop = inside := by
  simp only [earliest_rawOpeners_iff]
  constructor
  · intro h
    obtain ⟨o, hfirst, hstart, hstop⟩ := h.exists_opensFirst
    exact ⟨o, ⟨hfirst, hstart ▸ h.opens.lt⟩, hstart, hstop⟩
  · rintro ⟨o, ⟨hfirst, hlt⟩, rfl, rfl⟩
    exact hfirst.opensRawFirst hlt

end first

theorem OpensRawFirst.skipRaw_eq {r : TagMatcher} {start inside : Nat}
    (h : s.OpensRawFirst tag text pos limit (fun _ _ => True) r start inside) :
    s.skipRaw tag text pos limit = (s.closer? r text inside).map (·.2) := by
  obtain ⟨o, hearliest, -, rfl⟩ := opensRawFirst_iff.mp h
  rw [skipRaw, hearliest, Option.bind_some, closer?, if_pos h.opens.raw]

/-- Where a raw block opens in the window, one of them is the first. -/
theorem OpensRaw.exists_first {q : TagMatcher} {start' inside' : Nat}
    (h : s.OpensRaw tag text pos limit q start' inside') :
    ∃ r start inside, s.OpensRawFirst tag text pos limit (fun _ _ => True) r start inside := by
  obtain ⟨x, hx, hle⟩ := h.exists_find?
  have hmem : (q, x) ∈ s.rawOpeners tag text pos limit :=
    List.mem_filterMap.mpr ⟨q, h.mem, rawOpener?_eq_some_iff.mpr
      ⟨h.raw, h.other, hx, Nat.lt_of_le_of_lt hle h.lt, rfl⟩⟩
  obtain ⟨y, l, hl⟩ := List.exists_cons_of_ne_nil (List.ne_nil_of_mem hmem)
  obtain ⟨⟨r, o⟩, hearliest⟩ := Option.ne_none_iff_exists'.mp (earliest_ne_none (x := y) (l := l))
  rw [← hl] at hearliest
  exact ⟨r, o.start, o.stop, opensRawFirst_iff.mpr ⟨o, hearliest, rfl, rfl⟩⟩

/-- The search is told an end exactly if the raw block that opens first is closed. -/
theorem skipRaw_eq_some_iff {stop : Nat} :
    s.skipRaw tag text pos limit = some stop ↔ ∃ r start inside close,
      s.OpensRawFirst tag text pos limit (fun _ _ => True) r start inside ∧
        s.closer? r text inside = some (close, stop) := by
  constructor
  · intro h
    obtain ⟨⟨r, o⟩, hearliest, -⟩ := Option.bind_eq_some_iff.mp h
    have hfirst := opensRawFirst_iff.mpr ⟨o, hearliest, rfl, rfl⟩
    rw [hfirst.skipRaw_eq] at h
    obtain ⟨⟨close, last⟩, hclose, rfl⟩ := Option.map_eq_some_iff.mp h
    exact ⟨r, _, _, close, hfirst, hclose⟩
  · rintro ⟨r, start, inside, close, hfirst, hclose⟩
    rw [hfirst.skipRaw_eq, hclose]
    rfl

/-! ### What the search is told -/

/-- The search is told the end of the raw block that opens first, if that one is closed.  This is
the end of the first that is closed, and nothing if none is, exactly unless the one that opens first
is never closed and another one is. -/
theorem skipRaw_tellsFirstClosed_iff (s : TagScanner) (tag : String) (text : Array Char)
    (pos limit : Nat) :
    (∀ stop, s.skipRaw tag text pos limit = some stop ↔ ∃ r start inside close,
      s.OpensRawFirst tag text pos limit (fun _ _ => True) r start inside ∧
        s.closer? r text inside = some (close, stop)) ∧
    (s.TellsFirstClosed tag text pos limit (s.skipRaw tag text pos limit) ↔
      ∀ r start inside, s.OpensRawFirst tag text pos limit (fun _ _ => True) r start inside →
        ¬ s.IsClosed text r inside → ∀ q start' inside',
          s.OpensRaw tag text pos limit q start' inside' → ¬ s.IsClosed text q inside') := by
  refine ⟨fun stop => skipRaw_eq_some_iff, fun htells r start inside hfirst hopen => ?_,
    fun hfirst => ?_⟩
  · have hnone : s.skipRaw tag text pos limit = none := by
      rw [hfirst.skipRaw_eq, Option.map_eq_none_iff]
      exact Option.eq_none_iff_forall_ne_some.mpr fun close hclose => hopen ⟨close, hclose⟩
    rw [hnone] at htells
    exact htells
  · cases hskip : s.skipRaw tag text pos limit with
    | some stop =>
        obtain ⟨r, start, inside, close, ⟨hopens, -, before, after, hsplit, hle⟩, hclose⟩ :=
          skipRaw_eq_some_iff.mp hskip
        refine ⟨r, start, inside, close, ⟨hopens, ⟨_, hclose⟩, before, after, hsplit, ?_⟩, hclose⟩
        exact fun q start' inside' hq _ => hle q start' inside' hq trivial
    | none =>
        intro q start' inside' hq
        obtain ⟨r, start, inside, hr⟩ := hq.exists_first
        refine hfirst r start inside hr ?_ q start' inside' hq
        rintro ⟨close, hclose⟩
        rw [hr.skipRaw_eq, hclose] at hskip
        cases hskip

/-- The inside of a block: a macro that is never closed, and a comment with a closing tag in it. -/
def insideUnclosed : List Char :=
  BuiltinTag.definition.text ['a'] ++ ['\x7b', '#', 'c', 'o', 'm', 'm', 'e', 'n', 't', '\x7d',
    '\x7b', '/', 'i', 'f', '\x7d', '\x7b', '/', 'c', 'o', 'm', 'm', 'e', 'n', 't', '\x7d']

/-- Because of the macro the search is told nothing of the comment, and takes the closing tag in it
for that of the block. -/
theorem not_tellsFirstClosed_insideUnclosed :
    builtin.skipRaw "if" insideUnclosed.toArray 0 19 = none ∧
    ¬ builtin.TellsFirstClosed "if" insideUnclosed.toArray 0 19
      (builtin.skipRaw "if" insideUnclosed.toArray 0 19) := by
  have hmem (t : BuiltinTag) : t.matcher ∈ builtin.matchers := mem_matchers_builtin.mpr ⟨t, rfl⟩
  have hcloser (t : BuiltinTag) (pos : Nat) :
      builtin.closerWithin 35 t.matcher insideUnclosed.toArray pos =
        some (builtin.closer? t.matcher insideUnclosed.toArray pos) :=
    closerWithin_eq advances_builtin.takes_opener advances_builtin.takes_closer (hmem t) (by decide)
  have haccepts : BuiltinTag.definition.Accepts ['a'] :=
    show isArguments ['a'] = true by decide
  have hmacro : BuiltinTag.definition.opener.matchAt? insideUnclosed.toArray 0 = some ⟨9, []⟩ :=
    matchAt?_opener haccepts (remains_toArray insideUnclosed)
  have hfirst : builtin.OpensRawFirst "if" insideUnclosed.toArray 0 19 (fun _ _ => True)
      BuiltinTag.definition.matcher 0 9 := by
    refine ⟨⟨hmem _, rfl, by decide, by decide, by decide, by decide, _, hmacro, rfl⟩, trivial,
      (BuiltinTag.all.take 15).map BuiltinTag.matcher, [BuiltinTag.invocation.matcher], rfl, ?_⟩
    refine fun q start' inside' hq _ => ⟨Nat.zero_le _, fun hbefore => Nat.pos_of_ne_zero ?_⟩
    rintro rfl
    obtain ⟨t, hmatch, -⟩ := hq.opens
    -- of the tags before it only the comment is raw, and none begins here
    have hnone : ∀ q ∈ (BuiltinTag.all.take 15).map BuiltinTag.matcher, q.tag.rawBody = true →
        q.opener.pattern.matchAt? insideUnclosed.toArray 0 = none := by
      decide +kernel
    rw [hnone q hbefore hq.raw] at hmatch
    cases hmatch
  have hopen : builtin.closer? BuiltinTag.definition.matcher insideUnclosed.toArray 9 = none :=
    Option.some.inj ((hcloser .definition 9).symm.trans (by decide +kernel))
  have hskip : builtin.skipRaw "if" insideUnclosed.toArray 0 19 = none := by
    rw [hfirst.skipRaw_eq, hopen]
    rfl
  refine ⟨hskip, fun htells => ?_⟩
  rw [hskip] at htells
  have hcomment : BuiltinTag.comment.opener.matchAt? insideUnclosed.toArray 9 = some ⟨19, []⟩ := by
    decide +kernel
  have hclosed : builtin.closer? BuiltinTag.comment.matcher insideUnclosed.toArray 19 =
      some (24, 34) :=
    Option.some.inj ((hcloser .comment 19).symm.trans (by decide +kernel))
  exact htells _ 9 19 ⟨hmem .comment, rfl, by decide, by decide, by decide, by decide, _, hcomment,
    rfl⟩ ⟨_, hclosed⟩

end TagScanner

end TagTemplate
