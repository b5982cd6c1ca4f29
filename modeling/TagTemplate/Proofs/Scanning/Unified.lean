import TagTemplate.Proofs.Pattern.Search
import TagTemplate.Tag.Scanner

/-! # The pattern of all tags

The patterns of a scanner are compiled one by one, and the text of the pattern of all tags puts the
opening patterns side by side, each in a group of its own.  A scanner is unified when that text is
read as it looks.

* `ofTags_ok`: what a scanner is made of.
* `matchAt?_alternatives`: the pattern of all tags matches where the first tag that opens there
  does.
* `find?_eq_some_iff`: with groups of different names the tag found is the first that opens
  anywhere. -/

namespace TagTemplate

/-! ### Compiled patterns -/

theorem Fragment.compile_ok {tag template : String} {d : Delimiters} {f : Fragment}
    (h : compile tag template d = .ok f) :
    Pattern.parse? f.source = some f.pattern ∧ f.pattern.groupNames = [] ∧
      f.pattern.isMatch #[] = false := by
  unfold compile at h
  dsimp only at h
  split at h
  · cases h
  · next pattern hp =>
    split at h
    · cases h
    · next hg =>
      split at h
      · cases h
      · next hm =>
        cases h
        exact ⟨hp, hg, by simpa using hm⟩

theorem Fragment.compileClosing_ok {tag : String} {closing : Option String} {d : Delimiters}
    {c : Fragment} (h : compileClosing tag closing d = .ok (some c)) :
    ∃ template, closing = some template ∧ compile tag template d = .ok c := by
  unfold compileClosing at h
  cases closing with
  | none => cases h
  | some template =>
      refine ⟨template, rfl, ?_⟩
      dsimp only at h
      cases hc : compile tag template d with
      | error e => rw [hc] at h; cases h
      | ok f => rw [hc] at h; cases h; rfl

def TagMatcher.patterns (m : TagMatcher) : List Pattern :=
  m.opener.pattern :: (m.closer.map (·.pattern)).toList

namespace TagScanner

theorem matchersOf_cons_ok {d : Delimiters} {tag : TagDefinition} {group : String}
    {l : List (TagDefinition × String)} {ms : List TagMatcher}
    (h : matchersOf d ((tag, group) :: l) = .ok ms) :
    ∃ opener closer rest, Fragment.compile tag.name tag.pattern d = .ok opener ∧
      Fragment.compileClosing tag.name tag.closing d = .ok closer ∧
      matchersOf d l = .ok rest ∧ ms = ⟨tag, group, opener, closer⟩ :: rest := by
  rw [matchersOf] at h
  cases ho : Fragment.compile tag.name tag.pattern d with
  | error e => rw [ho] at h; cases h
  | ok opener =>
      cases hc : Fragment.compileClosing tag.name tag.closing d with
      | error e => rw [ho, hc] at h; cases h
      | ok closer =>
          cases hr : matchersOf d l with
          | error e => rw [ho, hc, hr] at h; cases h
          | ok rest =>
              rw [ho, hc, hr] at h
              cases h
              exact ⟨opener, closer, rest, rfl, rfl, rfl, rfl⟩

theorem compiled_of_mem_matchersOf {d : Delimiters} {l : List (TagDefinition × String)}
    {ms : List TagMatcher} (h : matchersOf d l = .ok ms) {m : TagMatcher} (hm : m ∈ ms) :
    Fragment.compile m.tag.name m.tag.pattern d = .ok m.opener ∧
      Fragment.compileClosing m.tag.name m.tag.closing d = .ok m.closer := by
  induction l generalizing ms with
  | nil => cases h; exact absurd hm List.not_mem_nil
  | cons e l ih =>
      obtain ⟨tag, group⟩ := e
      obtain ⟨opener, closer, rest, ho, hc, hr, rfl⟩ := matchersOf_cons_ok h
      rcases List.mem_cons.mp hm with rfl | hm
      · exact ⟨ho, hc⟩
      · exact ih hr hm

/-- The scanner of a set of tags whose names have the fingerprints given by `hash`. -/
def ofTagsBy (hash : String → Nat) (tags : TagSet) (d : Delimiters) :
    Except TagError TagScanner := do
  if !d.isUsable then throw .emptyDelimiter
  let groups := (GroupName.chooseAll hash [] tags.names).map String.ofList
  let matchers ← matchersOf d (tags.definitions.zip groups)
  let source := unifiedSource matchers
  match Pattern.parse? source with
  | none => throw (.invalidPattern "<unified>")
  | some pattern => return { delimiters := d, matchers, source, pattern }

theorem ofTags_eq_by (tags : TagSet) (d : Delimiters) :
    ofTags tags d = ofTagsBy Text.fingerprint tags d :=
  rfl

theorem ofTagsBy_ok {hash : String → Nat} {tags : TagSet} {d : Delimiters} {s : TagScanner}
    (h : ofTagsBy hash tags d = .ok s) :
    d.isUsable = true ∧
      matchersOf d (tags.definitions.zip
        ((GroupName.chooseAll hash [] tags.names).map String.ofList)) = .ok s.matchers ∧
      Pattern.parse? (unifiedSource s.matchers) = some s.pattern ∧ s.delimiters = d ∧
      s.source = unifiedSource s.matchers := by
  unfold ofTagsBy at h
  cases hd : d.isUsable with
  | false => simp only [hd] at h; cases h
  | true =>
      cases hm : matchersOf d (tags.definitions.zip
          ((GroupName.chooseAll hash [] tags.names).map String.ofList)) with
      | error e => simp only [hd, hm] at h; cases h
      | ok ms =>
          cases hp : Pattern.parse? (unifiedSource ms) with
          | none => simp only [hd, hm, Except.bind, bind, pure, Except.pure] at h; simp [hp] at h
          | some pattern =>
              simp only [hd, hm, Except.bind, bind, pure, Except.pure] at h
              simp [hp] at h
              subst h
              exact ⟨rfl, rfl, hp, rfl, rfl⟩

theorem ofTags_ok {tags : TagSet} {d : Delimiters} {s : TagScanner} (h : ofTags tags d = .ok s) :
    d.isUsable = true ∧
      matchersOf d (tags.definitions.zip
        ((GroupName.chooseAll Text.fingerprint [] tags.names).map String.ofList)) =
          .ok s.matchers ∧
      Pattern.parse? (unifiedSource s.matchers) = some s.pattern ∧ s.delimiters = d ∧
      s.source = unifiedSource s.matchers := by
  rw [ofTags_eq_by] at h
  exact ofTagsBy_ok h

theorem ofTags_of_parts {tags : TagSet} {d : Delimiters} {ms : List TagMatcher} {p : Pattern}
    (hd : d.isUsable = true)
    (hm : matchersOf d (tags.definitions.zip
      ((GroupName.chooseAll Text.fingerprint [] tags.names).map String.ofList)) = .ok ms)
    (hp : Pattern.parse? (unifiedSource ms) = some p) :
    ofTags tags d = .ok ⟨d, ms, unifiedSource ms, p⟩ := by
  unfold ofTags
  simp only [hd, hm, bind, Except.bind, pure, Except.pure]
  simp [hp]

/-- The patterns of a scanner have no groups and do not match the empty text. -/
theorem compiled_of_mem {tags : TagSet} {d : Delimiters} {s : TagScanner}
    (h : ofTags tags d = .ok s) {m : TagMatcher} (hm : m ∈ s.matchers) {p : Pattern}
    (hp : p ∈ m.patterns) : p.groupNames = [] ∧ p.isMatch #[] = false := by
  obtain ⟨ho, hc⟩ := compiled_of_mem_matchersOf (ofTags_ok h).2.1 hm
  rcases List.mem_cons.mp hp with rfl | hp
  · exact (Fragment.compile_ok ho).2
  · cases hclose : m.closer with
    | none => rw [hclose] at hp; exact absurd hp List.not_mem_nil
    | some c =>
        rw [hclose] at hp hc
        obtain ⟨template, _, hcompile⟩ := Fragment.compileClosing_ok hc
        obtain rfl : p = c.pattern := by simpa using hp
        exact (Fragment.compile_ok hcompile).2

/-! ### The alternatives of all tags -/

/-- The opening patterns side by side, each in its group. -/
def alternatives (ms : List TagMatcher) : Pattern :=
  Pattern.altAll (ms.map fun m => .group m.group m.opener.pattern)

/-- The pattern of all tags is what its text looks like. -/
def Unified (s : TagScanner) : Prop :=
  s.matchers ≠ [] → s.pattern = alternatives s.matchers

end TagScanner

/-! ### Matches of alternatives -/

theorem findSome?_congr {α β : Type} {f g : α → Option β} :
    ∀ {l : List α}, (∀ a ∈ l, f a = g a) → l.findSome? f = l.findSome? g
  | [], _ => rfl
  | a :: l, h => by
      rw [List.findSome?_cons, List.findSome?_cons, h a List.mem_cons_self,
        findSome?_congr fun b hb => h b (List.mem_cons_of_mem a hb)]

/-- Of a list with different keys, the one element with a given key. -/
theorem findSome?_key {α β : Type} {key : α → String} {a : α} (f : α → β) :
    ∀ {l : List α}, (l.map key).Nodup → a ∈ l →
      (l.findSome? fun b => if key a = key b then some (f b) else none) = some (f a)
  | b :: l, hn, ha => by
      rw [List.map_cons, List.nodup_cons] at hn
      rw [List.findSome?_cons]
      rcases List.mem_cons.mp ha with rfl | ha
      · rw [if_pos rfl]
      · have hne : key a ≠ key b := fun h => hn.1 (h ▸ List.mem_map_of_mem ha)
        rw [if_neg hne]
        exact findSome?_key f hn.2 ha

theorem findSome?_cons_or {α β : Type} {f : α → Option β} (a : α) (l : List α) :
    (a :: l).findSome? f = (f a).or (l.findSome? f) := by
  rw [List.findSome?_cons]
  cases f a <;> rfl

namespace Pattern

variable {text : Array Char} {pos : Nat}

theorem matchAt?_alt (a b : Pattern) (hpos : pos ≤ text.size) :
    (alt a b).matchAt? text pos = (a.matchAt? text pos).or (b.matchAt? text pos) := by
  have ha := follow_extends text a { pos } {} hpos Reach.sound_empty
  have hb := follow_extends text b { pos } (follow text a { pos } {}) hpos ha.sound
  rw [matchAt?, matchAt?, matchAt?, follow]
  by_cases hnil : (follow text a { pos } {}).trails = []
  · rw [ha.sound.eq_empty hnil]
    rfl
  · rw [hb.head?_toList hnil]
    obtain ⟨u, us, hus⟩ := List.exists_cons_of_ne_nil fun h => hnil (List.reverse_eq_nil_iff.mp h)
    rw [Reach.toList, hus]
    rfl

theorem head?_foldl_add (f : Trail → Trail) : ∀ (l : List Trail) (r : Reach), r.Sound →
    r.trails ≠ [] → (l.foldl (fun r u => r.add (f u)) r).toList.head? = r.toList.head?
  | [], _, _, _ => rfl
  | u :: l, r, hs, hr => by
      have hadd : Reach.Extends (fun _ => True) r (r.add (f u)) := .add hs trivial
      rw [List.foldl_cons, head?_foldl_add f l _ hadd.sound ?_, hadd.head?_toList hr]
      obtain ⟨v, vs, hvs⟩ := List.exists_cons_of_ne_nil hr
      exact List.ne_nil_of_mem (hadd.keeps (u := v) (by simp [hvs]))

theorem matchAt?_group (name : String) (a : Pattern) :
    (group name a).matchAt? text pos =
      (a.matchAt? text pos).map fun u => { u with groups := (name, pos, u.pos) :: u.groups } := by
  rw [matchAt?, matchAt?, follow]
  cases h : (follow text a { pos } {}).toList with
  | nil => rfl
  | cons u l =>
      rw [List.foldl_cons, head?_foldl_add (fun u => _) l _ (Reach.sound_empty.add _)
        (by simp [Reach.add, Reach.has])]
      simp [Reach.add, Reach.has, Reach.toList]

end Pattern

namespace TagScanner

variable {text : Array Char} {pos start : Nat}

/-- The pattern of all tags matches where the first tag that opens there does, in its group. -/
theorem matchAt?_alternatives (hpos : pos ≤ text.size) : ∀ {ms : List TagMatcher}, ms ≠ [] →
    (alternatives ms).matchAt? text pos = ms.findSome? fun m =>
      (m.opener.pattern.matchAt? text pos).map fun u =>
        { u with groups := (m.group, pos, u.pos) :: u.groups }
  | [], h => absurd rfl h
  | [m], _ => by
      rw [List.findSome?_cons, List.findSome?_nil, ← Pattern.matchAt?_group]
      cases h : (Pattern.group m.group m.opener.pattern).matchAt? text pos <;> exact h
  | m :: m' :: ms, _ => by
      have h : alternatives (m :: m' :: ms)
          = .alt (.group m.group m.opener.pattern) (alternatives (m' :: ms)) := rfl
      rw [h, Pattern.matchAt?_alt _ _ hpos, Pattern.matchAt?_group,
        matchAt?_alternatives hpos (List.cons_ne_nil m' ms), findSome?_cons_or m]

/-- The first tag that opens at a position. -/
def opening? (s : TagScanner) (text : Array Char) (pos : Nat) : Option TagMatch :=
  s.matchers.findSome? fun m =>
    (m.opener.pattern.matchAt? text pos).map fun u => ⟨m, pos, u.pos⟩

theorem mem_matchers {s : TagScanner} {found : TagMatch}
    (h : s.find? text start = some found) : found.matcher ∈ s.matchers := by
  obtain ⟨m, _, h⟩ := Option.bind_eq_some_iff.mp h
  obtain ⟨t, ht, h⟩ := List.exists_of_findSome?_eq_some h
  obtain ⟨_, _, rfl⟩ := Option.map_eq_some_iff.mp h
  exact ht

section unified
variable {s : TagScanner} (hu : s.Unified)
  (hg : ∀ m ∈ s.matchers, m.opener.pattern.groupNames = [])

theorem start_of_opening? {found : TagMatch} (h : s.opening? text pos = some found) :
    found.start = pos ∧ found.matcher ∈ s.matchers ∧
      ∃ u, found.matcher.opener.pattern.matchAt? text pos = some u ∧ u.pos = found.stop := by
  obtain ⟨m, hm, hmap⟩ := List.exists_of_findSome?_eq_some h
  obtain ⟨u, hu, hfound⟩ := Option.map_eq_some_iff.mp hmap
  subst hfound
  exact ⟨rfl, hm, u, hu, rfl⟩

include hu hg

/-- The pattern of a unified scanner matches where the first tag that opens there does. -/
theorem matchAt?_pattern (hne : s.matchers ≠ []) (hpos : pos ≤ text.size) :
    s.pattern.matchAt? text pos = (s.opening? text pos).map fun found =>
      ⟨found.stop, [(found.matcher.group, found.start, found.stop)]⟩ := by
  rw [hu hne, matchAt?_alternatives hpos hne, opening?, List.map_findSome?]
  refine findSome?_congr fun m hm => ?_
  rw [Function.comp_apply, Option.map_map]
  cases hat : m.opener.pattern.matchAt? text pos with
  | none => rfl
  | some u =>
      have := (Pattern.ends_of_matchAt? hpos hat).groups (hg m hm)
      simp [this]

theorem find?_pattern {found : TagMatch} (h : s.find? text start = some found) :
    ∃ groups, s.pattern.find? text start = some ⟨found.start, found.stop, groups⟩ := by
  obtain ⟨m, hm, h⟩ := Option.bind_eq_some_iff.mp h
  obtain ⟨t, ht, h⟩ := List.exists_of_findSome?_eq_some h
  obtain ⟨⟨first, last⟩, hplace, rfl⟩ := Option.map_eq_some_iff.mp h
  obtain ⟨_, hsize, hat, _⟩ := Pattern.find?_eq_some_iff.mp hm
  rw [matchAt?_pattern hu hg (List.ne_nil_of_mem ht) hsize] at hat
  obtain ⟨found, hfound, heq⟩ := Option.map_eq_some_iff.mp hat
  obtain ⟨hstart, _⟩ := start_of_opening? hfound
  obtain ⟨hstop, hgroups⟩ := Trail.mk.injEq _ _ _ _ ▸ heq
  refine ⟨m.groups, ?_⟩
  rw [groupPlace?, ← hgroups, NameMap.find?, NameMap.find?] at hplace
  split at hplace
  · cases hplace
    rw [hm, hstart, hstop]
  · cases hplace

/-- With groups of different names the tag found is the first that opens anywhere. -/
theorem find?_eq_some_iff (hn : (s.matchers.map (·.group)).Nodup) {found : TagMatch} :
    s.find? text start = some found ↔
      start ≤ found.start ∧ found.start ≤ text.size ∧
        s.opening? text found.start = some found ∧
        ∀ pos, start ≤ pos → pos < found.start → s.opening? text pos = none := by
  have hplace (x : TagMatch) (hx : x.matcher ∈ s.matchers) :
      (s.matchers.findSome? fun t =>
        (groupPlace? ⟨x.start, x.stop, [(x.matcher.group, x.start, x.stop)]⟩ t.group).map
          fun p => (⟨t, p.1, p.2⟩ : TagMatch)) = some x := by
    rw [← findSome?_key (fun t => (⟨t, x.start, x.stop⟩ : TagMatch)) hn hx]
    refine findSome?_congr fun t _ => ?_
    rw [groupPlace?, NameMap.find?, NameMap.find?]
    split <;> rfl
  constructor
  · intro h
    have hne := List.ne_nil_of_mem (mem_matchers h)
    obtain ⟨m, hm, h⟩ := Option.bind_eq_some_iff.mp h
    obtain ⟨hle, hsize, hat, hbefore⟩ := Pattern.find?_eq_some_iff.mp hm
    rw [matchAt?_pattern hu hg hne hsize] at hat
    obtain ⟨x, hx, heq⟩ := Option.map_eq_some_iff.mp hat
    obtain ⟨hstart, hmem, _⟩ := start_of_opening? hx
    obtain ⟨hstop, hgroups⟩ := Trail.mk.injEq _ _ _ _ ▸ heq
    have hm' : m = ⟨x.start, x.stop, [(x.matcher.group, x.start, x.stop)]⟩ := by
      rw [hgroups, hstart, hstop]
    rw [hm'] at h
    cases (hplace x hmem).symm.trans h
    rw [hstart]
    refine ⟨hle, hsize, hx, fun pos h₁ h₂ => ?_⟩
    have := hbefore pos h₁ h₂
    rwa [matchAt?_pattern hu hg hne (by omega), Option.map_eq_none_iff] at this
  · rintro ⟨hle, hsize, hx, hbefore⟩
    obtain ⟨_, hmem, _⟩ := start_of_opening? hx
    have hne := List.ne_nil_of_mem hmem
    have hm : s.pattern.find? text start =
        some ⟨found.start, found.stop, [(found.matcher.group, found.start, found.stop)]⟩ := by
      refine Pattern.find?_eq_some_iff.mpr ⟨hle, hsize, ?_, fun pos h₁ h₂ => ?_⟩
      · rw [matchAt?_pattern hu hg hne hsize, hx]
        rfl
      · dsimp only at h₂
        rw [matchAt?_pattern hu hg hne (by omega), hbefore pos h₁ h₂]
        rfl
    rw [find?, hm]
    exact hplace found hmem

/-- A tag that opens at the start of a search is found there, perhaps under the name of its
group. -/
theorem find?_of_opening? (hpos : pos ≤ text.size) {found : TagMatch}
    (h : s.opening? text pos = some found) :
    ∃ m, s.find? text pos = some ⟨m, pos, found.stop⟩ := by
  obtain ⟨hstart, hmem, _⟩ := start_of_opening? h
  have hm : s.pattern.find? text pos =
      some ⟨pos, found.stop, [(found.matcher.group, pos, found.stop)]⟩ := by
    refine Pattern.find?_eq_some_iff.mpr ⟨Nat.le_refl pos, hpos, ?_,
      fun _ h₁ h₂ => absurd h₁ (Nat.not_le_of_lt h₂)⟩
    rw [matchAt?_pattern hu hg (List.ne_nil_of_mem hmem) hpos, h, ← hstart]
    rfl
  rw [find?, hm, Option.bind_some]
  change ∃ m, (s.matchers.findSome? fun t =>
    (groupPlace? ⟨pos, found.stop, [(found.matcher.group, pos, found.stop)]⟩ t.group).map
      fun p => (⟨t, p.1, p.2⟩ : TagMatch)) = _
  cases hx : s.matchers.findSome? fun t =>
      (groupPlace? ⟨pos, found.stop, [(found.matcher.group, pos, found.stop)]⟩ t.group).map
        fun p => (⟨t, p.1, p.2⟩ : TagMatch) with
  | none =>
      have := List.findSome?_eq_none_iff.mp hx _ hmem
      simp [groupPlace?, NameMap.find?] at this
  | some x =>
      obtain ⟨t, _, ht⟩ := List.exists_of_findSome?_eq_some hx
      obtain ⟨p, hplace, rfl⟩ := Option.map_eq_some_iff.mp ht
      rw [groupPlace?, NameMap.find?, NameMap.find?] at hplace
      split at hplace
      · cases hplace
        exact ⟨t, rfl⟩
      · cases hplace

theorem find?_eq_none_of_opening? (hnone : ∀ pos, start ≤ pos → pos ≤ text.size →
    s.opening? text pos = none) : s.find? text start = none := by
  cases h : s.find? text start with
  | none => rfl
  | some found =>
      obtain ⟨groups, hm⟩ := find?_pattern hu hg h
      obtain ⟨hle, hsize, hat, _⟩ := Pattern.find?_eq_some_iff.mp hm
      dsimp only at hle hsize hat
      rw [matchAt?_pattern hu hg (List.ne_nil_of_mem (mem_matchers h)) hsize, hnone _ hle hsize] at hat
      cases hat

end unified

end TagScanner

end TagTemplate
