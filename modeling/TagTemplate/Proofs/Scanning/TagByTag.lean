import Mathlib.Data.List.Nodup
import Mathlib.Data.List.Perm.Subperm
import Mathlib.Data.Nat.Find
import TagTemplate.Proofs.Pattern.Enclosing
import TagTemplate.Proofs.Scanning.TagText

/-! # Scanning tag by tag

The pattern of all tags puts the texts of the opening patterns into groups.  Each of them is read
there as the pattern that it is alone, unless its text leaves a comment open, and then a search
for all tags at once finds what searches for each tag find.

* `GroupName.nodup_chooseAll`: the groups of different tags have different names.
* `unified_of_closed`: the pattern of all tags is what its text looks like.
* `find?_tag_by_tag`: the tag found is the first one in the order of the set among those whose
  opening patterns match first in the text. -/

namespace TagTemplate

open Pattern

/-! ### Names of groups -/

namespace GroupName

variable {hash : String → Nat} {tag : String} {taken : List (List Char)}

theorem toString_injective : Function.Injective (toString : Nat → String) := by
  intro n m h
  have hdigits := congrArg String.toList h
  have hrepr (k : Nat) : (toString k).toList = Nat.toDigits 10 k := by
    have h : toString k = .ofList (Nat.toDigits 10 k) := Nat.repr_eq_ofList_toDigits
    rw [h, String.toList_ofList]
  rw [hrepr, hrepr] at hdigits
  have hnumber (k : Nat) : Nat.ofDigitChars 10 (Nat.toDigits 10 k) 0 = k :=
    Nat.ofDigitChars_toDigits (by decide) (by decide)
  rw [← hnumber n, hdigits, hnumber]

theorem candidate_injective (hash : String → Nat) (tag : String) :
    Function.Injective (candidate hash tag) := by
  intro n m h
  unfold candidate at h
  dsimp only at h
  split at h <;> split at h
  · next hn hm => exact hn.trans hm.symm
  · cases List.self_eq_append_right.mp h
  · cases List.append_right_eq_self.mp h
  · have hdigits := (List.cons.inj (List.append_cancel_left h)).2
    exact toString_injective (String.toList_inj.mp hdigits)

theorem firstFree_not_mem {count n : Nat}
    (h : ∃ k, n ≤ k ∧ k ≤ n + count ∧ candidate hash tag k ∉ taken) :
    firstFree hash tag taken count n ∉ taken := by
  induction count generalizing n with
  | zero =>
      obtain ⟨k, hle, hle', hfree⟩ := h
      obtain rfl : k = n := by omega
      exact hfree
  | succ count ih =>
      rw [firstFree]
      split
      · next htaken =>
        obtain ⟨k, hle, hle', hfree⟩ := h
        have hne : k ≠ n := by
          rintro rfl
          exact hfree htaken
        exact ih ⟨k, by omega, by omega, hfree⟩
      · assumption

theorem exists_free (hash : String → Nat) (tag : String) (taken : List (List Char)) :
    ∃ k, 0 ≤ k ∧ k ≤ 0 + taken.length ∧ candidate hash tag k ∉ taken := by
  by_contra hall
  push Not at hall
  have hsub : (List.range (taken.length + 1)).map (candidate hash tag) ⊆ taken := by
    intro x hx
    obtain ⟨k, hk, rfl⟩ := List.mem_map.mp hx
    exact hall k (Nat.zero_le k) (by have := List.mem_range.mp hk; omega)
  have hnodup : ((List.range (taken.length + 1)).map (candidate hash tag)).Nodup :=
    List.Nodup.map (candidate_injective hash tag) List.nodup_range
  have hlen := (hnodup.subperm hsub).length_le
  rw [List.length_map, List.length_range] at hlen
  omega

theorem choose_not_mem (hash : String → Nat) (tag : String) (taken : List (List Char)) :
    choose hash tag taken ∉ taken := by
  unfold choose
  split
  · exact firstFree_not_mem (exists_free hash tag taken)
  · assumption

theorem chooseAll_fresh : ∀ {tags : List String} {taken : List (List Char)},
    ∀ x ∈ chooseAll hash taken tags, x ∉ taken
  | [], _, _, hx => absurd hx List.not_mem_nil
  | tag :: tags, taken, x, hx => by
      rcases List.mem_cons.mp hx with rfl | hx
      · exact choose_not_mem hash tag taken
      · exact fun h => chooseAll_fresh x hx (List.mem_cons_of_mem _ h)

theorem nodup_chooseAll : ∀ (tags : List String) (taken : List (List Char)),
    (chooseAll hash taken tags).Nodup
  | [], _ => List.nodup_nil
  | _ :: tags, _ =>
      List.nodup_cons.mpr
        ⟨fun h => chooseAll_fresh _ h List.mem_cons_self, nodup_chooseAll tags _⟩

theorem length_chooseAll : ∀ (tags : List String) (taken : List (List Char)),
    (chooseAll hash taken tags).length = tags.length
  | [], _ => rfl
  | _ :: tags, _ => congrArg (· + 1) (length_chooseAll tags _)

/-! ### Names as the reader of patterns takes them -/

def IsIdentifier (name : List Char) : Prop :=
  name.all isPart = true ∧ name.head?.any isStart = true

theorem isPart_hexDigits : ∀ (count n : Nat), (Text.hexDigits count n).all isPart = true
  | 0, _ => rfl
  | count + 1, n => by
      have hdigit : ∀ k < 16, isPart (Text.hexDigit k) = true := by decide
      rw [Text.hexDigits, List.all_append, isPart_hexDigits count, List.all_cons,
        hdigit _ (Nat.mod_lt n (by decide))]
      rfl

theorem isPart_toString (n : Nat) : (toString n).toList.all isPart = true := by
  have hrepr : toString n = .ofList (Nat.toDigits 10 n) := Nat.repr_eq_ofList_toDigits
  rw [hrepr, String.toList_ofList, List.all_eq_true]
  intro c hc
  have hdigit := Nat.isDigit_of_mem_toDigits (by decide) (by decide) hc
  simp [isPart, Char.isAlphanum, hdigit]

theorem isIdentifier_plain (tag : String) : IsIdentifier (plain tag) :=
  ⟨all_isPart_plain tag, isStart_head_plain tag⟩

/-- A name remains an identifier with more of its characters at its end. -/
theorem IsIdentifier.append {a b : List Char} (ha : IsIdentifier a) (hb : b.all isPart = true) :
    IsIdentifier (a ++ b) := by
  obtain ⟨hall, hhead⟩ := ha
  cases a with
  | nil => cases hhead
  | cons c a => exact ⟨by rw [List.all_append, hall, hb]; rfl, hhead⟩

theorem isIdentifier_candidate (hash : String → Nat) (tag : String) (n : Nat) :
    IsIdentifier (candidate hash tag n) := by
  have hhashed : IsIdentifier (plain tag ++ '_' :: Text.hexDigits 6 (hash tag)) :=
    (isIdentifier_plain tag).append (isPart_hexDigits 6 (hash tag))
  unfold candidate
  dsimp only
  split
  · exact hhashed
  · exact hhashed.append (isPart_toString n)

theorem isIdentifier_firstFree (hash : String → Nat) (tag : String) (taken : List (List Char)) :
    ∀ count n, IsIdentifier (firstFree hash tag taken count n)
  | 0, n => isIdentifier_candidate hash tag n
  | count + 1, n => by
      rw [firstFree]
      split
      · exact isIdentifier_firstFree hash tag taken count (n + 1)
      · exact isIdentifier_candidate hash tag n

theorem isIdentifier_choose (hash : String → Nat) (tag : String) (taken : List (List Char)) :
    IsIdentifier (choose hash tag taken) := by
  unfold choose
  split
  · exact isIdentifier_firstFree hash tag taken _ _
  · exact isIdentifier_plain tag

theorem isIdentifier_of_mem_chooseAll : ∀ {tags : List String} {taken : List (List Char)},
    ∀ x ∈ chooseAll hash taken tags, IsIdentifier x
  | [], _, _, hx => absurd hx List.not_mem_nil
  | tag :: tags, taken, x, hx => by
      rcases List.mem_cons.mp hx with rfl | hx
      · exact isIdentifier_choose hash tag taken
      · exact isIdentifier_of_mem_chooseAll x hx

/-- What the reader of names asks of the characters of identifiers. -/
theorem facts_of_isPart {c : Char} (h : isPart c = true) :
    c ≠ '>' ∧ ((c = '_' || Text.isAlphabetic c) || Text.isNumeric c) = true ∧
      (isStart c = true → (c = '_' || Text.isAlphabetic c) = true) := by
  have hascii : c.toNat < 128 := by
    rcases Bool.or_eq_true_iff.mp h with h | h
    · exact toNat_lt_of_isAlphanum h
    · rw [of_decide_eq_true h]
      decide
  let p (c : Char) : Bool := !isPart c || (c != '>' &&
    ((c = '_' || Text.isAlphabetic c) || Text.isNumeric c) &&
    (!isStart c || (c = '_' || Text.isAlphabetic c)))
  have hall : ∀ n < 128, p (Char.ofNat n) = true := by
    decide +kernel
  have hp : p c = true := forall_ascii hall hascii
  simp only [p, h, Bool.not_true, Bool.false_or, Bool.and_eq_true, bne_iff_ne] at hp
  refine ⟨hp.1.1, hp.1.2, fun hstart => ?_⟩
  have hrest := hp.2
  rwa [hstart, Bool.not_true, Bool.false_or] at hrest

theorem IsIdentifier.readName {name : List Char} (h : IsIdentifier name) (rest : List Char) :
    readName (name ++ '>' :: rest) = some (.ofList name, rest) := by
  obtain ⟨hall, hhead⟩ := h
  have hpart : ∀ c ∈ name, isPart c = true := List.all_eq_true.mp hall
  have hne : ∀ c ∈ name, decide (c ≠ '>') = true := fun c hc =>
    decide_eq_true (facts_of_isPart (hpart c hc)).1
  have htake : (name ++ '>' :: rest).takeWhile (· ≠ '>') = name := by
    rw [List.takeWhile_append_of_pos hne]
    exact List.append_nil name
  have hdrop : (name ++ '>' :: rest).dropWhile (· ≠ '>') = '>' :: rest := by
    rw [List.dropWhile_append_of_pos hne]
    rfl
  rw [Pattern.readName, htake, hdrop]
  cases name with
  | nil => cases hhead
  | cons first others =>
      have hstart := (facts_of_isPart (hpart first List.mem_cons_self)).2.2 hhead
      have hothers : others.all (fun c => (c = '_' || Text.isAlphabetic c) || Text.isNumeric c ||
          c = '.' || c = '[' || c = ']') = true := by
        refine List.all_eq_true.mpr fun c hc => ?_
        rw [(facts_of_isPart (hpart c (List.mem_cons_of_mem first hc))).2.1]
        rfl
      exact if_pos (Bool.and_eq_true_iff.mpr ⟨hstart, hothers⟩)

end GroupName

/-! ### The pattern of all tags -/

namespace TagScanner

variable {tags : TagSet} {d : Delimiters} {s : TagScanner}

/-- The matchers of a scanner are those of its tags, with their groups. -/
theorem map_matchersOf : ∀ {l : List (TagDefinition × String)}
    {ms : List TagMatcher}, matchersOf d l = .ok ms → ms.map (fun m => (m.tag, m.group)) = l
  | [], _, h => by
      cases h
      rfl
  | (tag, name) :: l, ms, h => by
      obtain ⟨opener, closer, rest, _, _, hrest, rfl⟩ := matchersOf_cons_ok h
      rw [List.map_cons, map_matchersOf hrest]

theorem map_tag_groupBy {hash : String → Nat} (h : ofTagsBy hash tags d = .ok s) :
    s.matchers.map (·.tag) = tags.definitions ∧ s.matchers.map (·.group) =
      (GroupName.chooseAll hash [] tags.names).map String.ofList := by
  have hpairs := map_matchersOf (ofTagsBy_ok h).2.1
  have hlen : tags.definitions.length =
      ((GroupName.chooseAll hash [] tags.names).map String.ofList).length := by
    rw [List.length_map, GroupName.length_chooseAll, TagSet.names, List.length_map]
  have hfst := congrArg (List.map Prod.fst) hpairs
  have hsnd := congrArg (List.map Prod.snd) hpairs
  rw [List.map_map, List.map_fst_zip (Nat.le_of_eq hlen)] at hfst
  rw [List.map_map, List.map_snd_zip (Nat.le_of_eq hlen.symm)] at hsnd
  exact ⟨hfst, hsnd⟩

theorem map_tag_group (h : ofTags tags d = .ok s) :
    s.matchers.map (·.tag) = tags.definitions ∧ s.matchers.map (·.group) =
      (GroupName.chooseAll Text.fingerprint [] tags.names).map String.ofList := by
  rw [ofTags_eq_by] at h
  exact map_tag_groupBy h

/-- The groups of a scanner have different names, whatever the fingerprints are. -/
theorem nodup_groupsBy {hash : String → Nat} (h : ofTagsBy hash tags d = .ok s) :
    (s.matchers.map (·.group)).Nodup := by
  rw [(map_tag_groupBy h).2]
  refine List.Nodup.map (fun a b hab => ?_) (GroupName.nodup_chooseAll tags.names [])
  exact (String.toList_ofList (l := a)).symm.trans ((congrArg String.toList hab).trans
    String.toList_ofList)

theorem nodup_groups (h : ofTags tags d = .ok s) : (s.matchers.map (·.group)).Nodup := by
  rw [ofTags_eq_by] at h
  exact nodup_groupsBy h

theorem readName_group (h : ofTags tags d = .ok s) {m : TagMatcher} (hm : m ∈ s.matchers)
    (rest : List Char) : readName (m.group.toList ++ '>' :: rest) = some (m.group, rest) := by
  have hmem : m.group ∈ s.matchers.map (·.group) := List.mem_map_of_mem hm
  rw [(map_tag_group h).2] at hmem
  obtain ⟨name, hname, hgroup⟩ := List.mem_map.mp hmem
  rw [← hgroup, String.toList_ofList]
  exact (GroupName.isIdentifier_of_mem_chooseAll name hname).readName rest

def groupText (m : TagMatcher) : List Char :=
  ['(', '?', 'P', '<'] ++ (m.group.toList ++ '>' :: (m.opener.source.toList ++ [')']))

theorem toList_groupSource (m : TagMatcher) : (groupSource m).toList = groupText m := by
  have hopen : "(?P<".toList = ['(', '?', 'P', '<'] := String.toList_ofList
  have hmid : ">".toList = ['>'] := String.toList_ofList
  have hclose : ")".toList = [')'] := String.toList_ofList
  rw [groupSource, String.toList_append, String.toList_append, String.toList_append,
    String.toList_append, hopen, hmid, hclose, groupText]
  simp only [List.append_assoc, List.cons_append, List.nil_append]

/-- The groups of several tags with bars between them are read as their alternatives, wherever
they are read at all. -/
theorem read_alternatives {q : Pattern} : ∀ {ms : List TagMatcher} {m : TagMatcher} {n : Nat}
    {names : List String} {branches : List Pattern},
    (∀ x ∈ m :: ms, Pattern.parse? x.opener.source = some x.opener.pattern ∧
      Closed x.opener.source ∧
      ∀ rest, readName (x.group.toList ++ '>' :: rest) = some (x.group, rest)) →
    Pattern.read n {} names { branches } [] (['|'].intercalate ((m :: ms).map groupText)) =
      some q →
    q = altAll (branches.reverse ++ (m :: ms).map fun m => .group m.group m.opener.pattern)
  | [], m, n, names, branches, hms, hread => by
      obtain ⟨hparse, hclosed, hname⟩ := hms m List.mem_cons_self
      rw [List.map_singleton, List.intercalate_singleton] at hread
      obtain ⟨k, names', hread⟩ := read_named_group (u := []) hparse hclosed hname hread
      cases k with
      | zero => cases hread
      | succ k =>
          have hend (g : OpenGroup) :
              Pattern.read (k + 1) {} names' g [] [] = some g.body := rfl
          rw [hend, OpenGroup.body, List.reverse_cons] at hread
          exact (Option.some.inj hread).symm
  | m' :: ms, m, n, names, branches, hms, hread => by
      obtain ⟨hparse, hclosed, hname⟩ := hms m List.mem_cons_self
      let rest := ['|'].intercalate ((m' :: ms).map groupText)
      have htext : ['|'].intercalate ((m :: m' :: ms).map groupText) = ['(', '?', 'P', '<'] ++
          (m.group.toList ++ '>' :: (m.opener.source.toList ++ ')' :: '|' :: rest)) := by
        rw [List.map_cons, List.map_cons, List.intercalate_cons_cons, ← List.map_cons, groupText]
        simp only [List.append_assoc, List.cons_append, List.nil_append]
        rfl
      rw [htext] at hread
      obtain ⟨k, names', hread⟩ := read_named_group hparse hclosed hname hread
      cases k with
      | zero => cases hread
      | succ k =>
          have hbar (g : OpenGroup) : Pattern.read (k + 1) {} names' g [] ('|' :: rest) =
              Pattern.read k {} names' g.alternate [] rest := rfl
          rw [hbar] at hread
          have ih : q = altAll ((.group m.group m.opener.pattern :: branches).reverse ++
              (m' :: ms).map fun m => .group m.group m.opener.pattern) :=
            read_alternatives (fun x hx => hms x (List.mem_cons_of_mem m hx)) hread
          rw [ih, List.reverse_cons, List.append_assoc]
          rfl

/-- The pattern of all tags is what its text looks like, if no opening pattern leaves a comment
open. -/
theorem unified_of_closed (h : ofTags tags d = .ok s)
    (hclosed : ∀ m ∈ s.matchers, Closed m.opener.source) : s.Unified := by
  intro hne
  obtain ⟨_, hmatchers, hparse, _, _⟩ := ofTags_ok h
  have htext : (unifiedSource s.matchers).toList =
      ['|'].intercalate (s.matchers.map groupText) := by
    have hbar : "|".toList = ['|'] := String.toList_ofList
    rw [unifiedSource, if_neg (by simpa using hne), String.toList_intercalate, hbar, List.map_map]
    exact congrArg _ (List.map_congr_left fun m _ => toList_groupSource m)
  have hms : ∀ x ∈ s.matchers, Pattern.parse? x.opener.source = some x.opener.pattern ∧
      Closed x.opener.source ∧
      ∀ rest, readName (x.group.toList ++ '>' :: rest) = some (x.group, rest) := by
    intro x hx
    have hcompile := (compiled_of_mem_matchersOf hmatchers hx).1
    exact ⟨(Fragment.compile_ok hcompile).1, hclosed x hx, readName_group h hx⟩
  obtain ⟨hread, _⟩ := Option.filter_eq_some_iff.mp hparse
  rw [htext] at hread
  obtain ⟨m, ms, heq⟩ := List.exists_cons_of_ne_nil hne
  rw [heq] at hms hread ⊢
  have hpattern : s.pattern = altAll ([].reverse ++
      (m :: ms).map fun m => .group m.group m.opener.pattern) := read_alternatives hms hread
  exact hpattern

/-! ### Searching tag by tag -/

/-- A tag that is registered takes the place of the one of its name, or a new one. -/
theorem nodup_names_of_register {e : TagDefinition} {start next : TagSet}
    (hstart : start.names.Nodup) (h : start.register e = .ok next) : next.names.Nodup := by
  have hnext : next = ⟨TagSet.put e start.definitions⟩ := by
    unfold TagSet.register at h
    split at h
    · cases h
    · split at h
      · cases h
      · exact (Except.ok.inj h).symm
  rw [hnext, TagSet.names, TagSet.map_name_put]
  split
  · exact hstart
  · next hnew => exact List.Nodup.append hstart (List.nodup_singleton _) (by simpa using hnew)

theorem nodup_names_of_registerAll : ∀ {definitions : List TagDefinition} {start tags : TagSet},
    start.names.Nodup → start.registerAll definitions = .ok tags → tags.names.Nodup
  | [], _, _, hstart, h => by
      cases h
      exact hstart
  | e :: definitions, start, tags, hstart, h => by
      rw [TagSet.registerAll, List.foldlM_cons] at h
      cases hregister : start.register e with
      | error err =>
          rw [hregister] at h
          cases h
      | ok next =>
          rw [hregister] at h
          exact nodup_names_of_registerAll (nodup_names_of_register hstart hregister) h

/-- A tag found is the first one that opens at its place, and nothing opens before. -/
theorem opens_of_find? (h : ofTags tags d = .ok s)
    (hclosed : ∀ m ∈ s.matchers, Closed m.opener.source) {text : Array Char} {start : Nat}
    {found : TagMatch} (hfound : s.find? text start = some found) :
    start ≤ found.start ∧ found.start ≤ text.size ∧
      (∃ u, found.matcher.opener.pattern.matchAt? text found.start = some u ∧
        u.pos = found.stop) ∧
      (∃ earlier later, s.matchers = earlier ++ found.matcher :: later ∧
        ∀ m ∈ earlier, m.opener.pattern.matchAt? text found.start = none) ∧
      ∀ m ∈ s.matchers, ∀ pos, start ≤ pos → pos < found.start →
        m.opener.pattern.matchAt? text pos = none := by
  have hg : ∀ m ∈ s.matchers, m.opener.pattern.groupNames = [] := fun m hm =>
    (compiled_of_mem h hm List.mem_cons_self).1
  obtain ⟨hle, hsize, hopen, hbefore⟩ :=
    (find?_eq_some_iff (unified_of_closed h hclosed) hg (nodup_groups h)).mp hfound
  obtain ⟨earlier, m, later, hsplit, hm, hearlier⟩ := List.findSome?_eq_some_iff.mp hopen
  obtain ⟨u, hu, heq⟩ := Option.map_eq_some_iff.mp hm
  obtain rfl : m = found.matcher := congrArg TagMatch.matcher heq
  refine ⟨hle, hsize, ⟨u, hu, congrArg TagMatch.stop heq⟩, ⟨earlier, later, hsplit, ?_⟩, ?_⟩
  · exact fun m hm => Option.map_eq_none_iff.mp (hearlier m hm)
  · intro m hm pos h₁ h₂
    exact Option.map_eq_none_iff.mp (List.findSome?_eq_none_iff.mp (hbefore pos h₁ h₂) m hm)

theorem find?_ne_none_of_opens (h : ofTags tags d = .ok s)
    (hclosed : ∀ m ∈ s.matchers, Closed m.opener.source) {text : Array Char} {start : Nat}
    {m : TagMatcher} (hm : m ∈ s.matchers) {x : Pattern.Match}
    (hx : m.opener.pattern.find? text start = some x) : (s.find? text start).isSome = true := by
  have hg : ∀ m ∈ s.matchers, m.opener.pattern.groupNames = [] := fun m hm =>
    (compiled_of_mem h hm List.mem_cons_self).1
  obtain ⟨hle, hsize, hat, _⟩ := Pattern.find?_eq_some_iff.mp hx
  have hopens : ∃ pos, start ≤ pos ∧ pos ≤ text.size ∧ s.opening? text pos ≠ none := by
    refine ⟨x.start, hle, hsize, fun hnone => ?_⟩
    have := Option.map_eq_none_iff.mp (List.findSome?_eq_none_iff.mp hnone m hm)
    rw [hat] at this
    cases this
  -- the first place at which any tag opens
  classical
  obtain ⟨hle, hsize, hopening⟩ := Nat.find_spec hopens
  obtain ⟨found, hfound⟩ := Option.ne_none_iff_exists'.mp hopening
  obtain ⟨hstart, _, _⟩ := start_of_opening? hfound
  have hfirst : s.find? text start = some found := by
    refine (find?_eq_some_iff (unified_of_closed h hclosed) hg (nodup_groups h)).mpr
      ⟨hstart ▸ hle, hstart ▸ hsize, hstart.symm ▸ hfound, fun pos h₁ h₂ => ?_⟩
    rw [hstart] at h₂
    by_contra hne
    exact Nat.find_min hopens h₂ ⟨h₁, by omega, hne⟩
  rw [hfirst]
  rfl

/-- Where a key belongs to one element of a list only, looking for the key finds that element. -/
theorem find?_eq_some_of_nodup {α β : Type} [DecidableEq β] {key : α → β} {l : List α}
    (h : (l.map key).Nodup) {x : α} (hx : x ∈ l) : l.find? (fun y => key y = key x) = some x := by
  induction l with
  | nil => exact absurd hx List.not_mem_nil
  | cons y l ih =>
      rw [List.map_cons, List.nodup_cons] at h
      rcases List.mem_cons.mp hx with rfl | hx
      · simp
      · have hne : key y ≠ key x := by
          intro heq
          apply h.1
          rw [heq]
          exact List.mem_map_of_mem hx
        rw [List.find?_cons_of_neg (by simpa using hne)]
        exact ih h.2 hx

theorem matcher?_of_nodup (hn : (s.matchers.map (·.tag.name)).Nodup) {m : TagMatcher}
    {earlier later : List TagMatcher} (hsplit : s.matchers = earlier ++ m :: later) :
    s.matcher? m.tag.name = some m := by
  apply find?_eq_some_of_nodup hn
  rw [hsplit]
  exact List.mem_append_right _ List.mem_cons_self

/-- **The search for all tags agrees with the searches for each tag**, if no opening pattern takes
a closing parenthesis behind it for a part of a comment.  A tag is found if some opening pattern
matches; it begins where the first of these matches begins, it is the first tag in the order of
the set whose match begins there, and it spans the match of its own pattern. -/
theorem find?_tag_by_tag {definitions : List TagDefinition}
    (hregistered : (∅ : TagSet).registerAll definitions = .ok tags) (h : ofTags tags d = .ok s)
    (hclosed : ∀ m ∈ s.matchers, Closed m.opener.source) (text : Array Char) (start : Nat) :
    s.matchers.map (·.tag) = tags.definitions ∧
    ((s.find? text start).isSome ↔
      ∃ m ∈ s.matchers, (m.opener.pattern.find? text start).isSome) ∧
    ∀ found, s.find? text start = some found →
      s.matcher? found.tag.name = some found.matcher ∧
      (∃ groups, found.matcher.opener.pattern.find? text start =
        some ⟨found.start, found.stop, groups⟩) ∧
      (∀ m ∈ s.matchers, ∀ x, m.opener.pattern.find? text start = some x →
        found.start ≤ x.start) ∧
      ∃ earlier later, s.matchers = earlier ++ found.matcher :: later ∧
        ∀ m ∈ earlier, ∀ x, m.opener.pattern.find? text start = some x → found.start < x.start := by
  have hown {found : TagMatch} (hfound : s.find? text start = some found) :
      ∃ groups, found.matcher.opener.pattern.find? text start =
        some ⟨found.start, found.stop, groups⟩ := by
    obtain ⟨hle, hsize, ⟨u, hu, hstop⟩, ⟨earlier, later, hsplit, _⟩, hbefore⟩ :=
      opens_of_find? h hclosed hfound
    have hmem : found.matcher ∈ s.matchers := hsplit ▸ List.mem_append_right _ List.mem_cons_self
    refine ⟨u.groups, Pattern.find?_eq_some_iff.mpr ⟨hle, hsize, ?_, ?_⟩⟩
    · rw [hu, ← hstop]
    · exact hbefore _ hmem
  refine ⟨(map_tag_group h).1, ⟨fun hsome => ?_, ?_⟩, fun found hfound => ?_⟩
  · obtain ⟨found, hfound⟩ := Option.isSome_iff_exists.mp hsome
    obtain ⟨groups, hfind⟩ := hown hfound
    exact ⟨found.matcher, mem_matchers hfound, by rw [hfind]; rfl⟩
  · rintro ⟨m, hm, hsome⟩
    obtain ⟨x, hx⟩ := Option.isSome_iff_exists.mp hsome
    exact find?_ne_none_of_opens h hclosed hm hx
  · obtain ⟨_, _, _, ⟨earlier, later, hsplit, hearlier⟩, hbefore⟩ :=
      opens_of_find? h hclosed hfound
    have hnodup : (s.matchers.map (·.tag.name)).Nodup := by
      have hnames : s.matchers.map (·.tag.name) = tags.names := by
        rw [TagSet.names, ← (map_tag_group h).1, List.map_map]
        rfl
      have hempty : (∅ : TagSet).names.Nodup := List.nodup_nil
      rw [hnames]
      exact nodup_names_of_registerAll hempty hregistered
    have hleast : ∀ m ∈ s.matchers, ∀ x, m.opener.pattern.find? text start = some x →
        found.start ≤ x.start := by
      intro m hm x hx
      obtain ⟨hle, _, hat, _⟩ := Pattern.find?_eq_some_iff.mp hx
      refine Nat.le_of_not_lt fun hlt => ?_
      rw [hbefore m hm x.start hle hlt] at hat
      cases hat
    refine ⟨matcher?_of_nodup hnodup hsplit, hown hfound, hleast, earlier, later, hsplit, ?_⟩
    intro m hm x hx
    have hmem : m ∈ s.matchers := hsplit ▸ List.mem_append_left _ hm
    refine Nat.lt_of_le_of_ne (hleast m hmem x hx) fun heq => ?_
    obtain ⟨_, _, hat, _⟩ := Pattern.find?_eq_some_iff.mp hx
    rw [← heq, hearlier m hm] at hat
    cases hat

/-- A tag of two letters between the delimiters. -/
def lettersTag : TagDefinition where
  name := "long"
  pattern := "\x7bopen\x7dab\x7bclose\x7d"
  kind := .custom

/-- A tag of any word between the delimiters. -/
def wordTag : TagDefinition where
  name := "wild"
  pattern := "\x7bopen\x7d\\w+\x7bclose\x7d"
  kind := .custom

def wordScanner : TagScanner where
  delimiters := {}
  matchers :=
    [⟨lettersTag, "long", ⟨"\\\x7bab\\\x7d", seqAll (letters ['\x7b', 'a', 'b', '\x7d'])⟩, none⟩,
      ⟨wordTag, "wild", ⟨"\\\x7b\\w+\\\x7d", seqAll [.char (.single '\x7b'),
        .seq (.char .word) (.star true (.char .word)), .char (.single '\x7d')]⟩, none⟩]
  source := "(?P<long>\\\x7bab\\\x7d)|(?P<wild>\\\x7b\\w+\\\x7d)"
  pattern := .alt (.group "long" (seqAll (letters ['\x7b', 'a', 'b', '\x7d'])))
    (.group "wild" (seqAll [.char (.single '\x7b'),
      .seq (.char .word) (.star true (.char .word)), .char (.single '\x7d')]))

theorem ofTags_wordScanner : ofTags ⟨[lettersTag, wordTag]⟩ {} = .ok wordScanner :=
  rfl

/-- Both patterns match at the same place of a text, and a tag is found with the match of its own
pattern. -/
theorem find?_tag_by_tag_wordScanner :
    (∅ : TagSet).registerAll [lettersTag, wordTag] = .ok ⟨[lettersTag, wordTag]⟩ ∧
    ofTags ⟨[lettersTag, wordTag]⟩ {} = .ok wordScanner ∧
    (∀ m ∈ wordScanner.matchers, Closed m.opener.source) ∧
    ∃ found, wordScanner.find? "x \x7bab\x7d".toList.toArray 0 = some found ∧
      wordScanner.matcher? found.tag.name = some found.matcher ∧
      ∃ groups, found.matcher.opener.pattern.find? "x \x7bab\x7d".toList.toArray 0 =
        some ⟨found.start, found.stop, groups⟩ := by
  have hregistered :
      (∅ : TagSet).registerAll [lettersTag, wordTag] = .ok ⟨[lettersTag, wordTag]⟩ := rfl
  have hclosed : ∀ m ∈ wordScanner.matchers, Closed m.opener.source := by
    intro m hm
    rcases List.mem_pair.mp hm with rfl | rfl <;> rfl
  obtain ⟨_, hsome, hall⟩ := find?_tag_by_tag hregistered ofTags_wordScanner hclosed
    "x \x7bab\x7d".toList.toArray 0
  obtain ⟨found, hfound⟩ :=
    Option.isSome_iff_exists.mp (hsome.mpr ⟨_, List.mem_cons_self, rfl⟩)
  obtain ⟨hmatcher, hown, _⟩ := hall found hfound
  exact ⟨hregistered, ofTags_wordScanner, hclosed, found, hfound, hmatcher, hown⟩

/-- A tag whose pattern ends inside a comment. -/
def openCommentTag : TagDefinition where
  name := "a"
  pattern := "(?x)a#"
  kind := .custom

/-- A tag whose pattern begins with a comment. -/
def commentTag : TagDefinition where
  name := "b"
  pattern := "(?x)#\nb"
  kind := .custom

/-- A comment left open takes in the group of the next tag, and the text of the first tag alone is
no longer found. -/
theorem find?_ne_of_open_comment : ∃ s,
    (∅ : TagSet).registerAll [openCommentTag, commentTag] = .ok ⟨[openCommentTag, commentTag]⟩ ∧
    ofTags ⟨[openCommentTag, commentTag]⟩ {} = .ok s ∧ s.find? #['a'] 0 = none ∧
    ∃ m ∈ s.matchers, m.opener.pattern.find? #['a'] 0 = some ⟨0, 1, []⟩ := by
  let letter (c : Char) : Pattern := .char (.single c)
  let opener (c : Char) : Pattern := .seq .empty (letter c)
  refine ⟨⟨{}, [⟨openCommentTag, "a", ⟨"(?x)a#", opener 'a'⟩, none⟩,
    ⟨commentTag, "b", ⟨"(?x)#\nb", opener 'b'⟩, none⟩],
    "(?P<a>(?x)a#)|(?P<b>(?x)#\nb)", .group "a" (seqAll [.empty, letter 'a', letter 'b'])⟩,
    rfl, rfl, rfl, _, List.mem_cons_self, rfl⟩

end TagScanner

end TagTemplate
