import TagTemplate.Proofs.Scanning.TagByTag

/-! # Tags and their groups

Each tag of a scanner has a group of its own, and the name of the group leads back to the tag.  The
names are chosen one after another, each free of those before it, so nothing depends on how the
names of tags look or on which of them have the same fingerprint.

* `GroupName.searchWithin_eq`: the search for a free name ends.
* `TagScanner.mem_groups_iff_tagOfGroup?` and `TagScanner.mem_groups_iff_groupOfTag?`: a group is
  listed with the tag to which it leads, and which leads to it.
* `TagScanner.groups_paired`: the pairs of groups and tags, for all sets of tags. -/

namespace TagTemplate

/-! ### The search for a free name -/

namespace GroupName

variable {hash : String → Nat} {tag : String} {taken : List (List Char)}

/-- The first name from the `n`-th on that is not taken, if the search looks at `time` names at
most. -/
def searchWithin (hash : String → Nat) (tag : String) (taken : List (List Char)) :
    Nat → Nat → Option (List Char)
  | 0, _ => none
  | time + 1, n =>
    if taken.contains (candidate hash tag n) then searchWithin hash tag taken time (n + 1)
    else some (candidate hash tag n)

/-- The search finds what counting down from the number of names left finds. -/
theorem searchWithin_eq_firstFree : ∀ {count n : Nat},
    (∃ k, n ≤ k ∧ k ≤ n + count ∧ candidate hash tag k ∉ taken) →
      searchWithin hash tag taken (count + 1) n = some (firstFree hash tag taken count n)
  | 0, n, h => by
      obtain ⟨k, hle, hle', hfree⟩ := h
      obtain rfl : k = n := by omega
      simp [searchWithin, firstFree, hfree]
  | count + 1, n, h => by
      by_cases hn : candidate hash tag n ∈ taken
      · obtain ⟨k, hle, hle', hfree⟩ := h
        have hne : k ≠ n := by
          rintro rfl
          exact hfree hn
        have hlater : ∃ k, n + 1 ≤ k ∧ k ≤ n + 1 + count ∧ candidate hash tag k ∉ taken :=
          ⟨k, by omega, by omega, hfree⟩
        rw [searchWithin, if_pos (List.contains_iff_mem.mpr hn), searchWithin_eq_firstFree hlater,
          firstFree, if_pos hn]
      · simp [searchWithin, firstFree, hn]

/-- The search for a free name ends after looking at one name more than there are taken ones. -/
theorem searchWithin_eq (h : plain tag ∈ taken) :
    searchWithin hash tag taken (taken.length + 1) 0 = some (choose hash tag taken) := by
  rw [choose, if_pos h]
  exact searchWithin_eq_firstFree (exists_free hash tag taken)

end GroupName

/-! ### Sets of tags after attempts to register some -/

/-- The set after an attempt to register a definition; it stays what it is if that fails. -/
def TagSet.attempt (s : TagSet) (d : TagDefinition) : TagSet :=
  match s.register d with
  | .ok t => t
  | .error _ => s

namespace TagScanner

theorem nodup_names_attempts : ∀ (definitions : List TagDefinition) {start : TagSet},
    start.names.Nodup → (definitions.foldl TagSet.attempt start).names.Nodup
  | [], _, h => h
  | e :: definitions, start, h => by
      rw [List.foldl_cons]
      apply nodup_names_attempts definitions
      unfold TagSet.attempt
      split
      · next next hnext => exact nodup_names_of_register h hnext
      · exact h

/-! ### The pairs of groups and tags -/

/-- The groups with the names of their tags, in the order of the tags. -/
def groups (s : TagScanner) : List (String × String) :=
  s.matchers.map fun m => (m.group, m.tag.name)

section pairs
variable {s : TagScanner} {group tag : String}

theorem mem_groups :
    (group, tag) ∈ s.groups ↔ ∃ m ∈ s.matchers, m.group = group ∧ m.tag.name = tag := by
  simp [groups]

theorem mem_groups_iff_tagOfGroup? (h : (s.matchers.map (·.group)).Nodup) :
    (group, tag) ∈ s.groups ↔ s.tagOfGroup? group = some tag := by
  rw [mem_groups, tagOfGroup?, Option.map_eq_some_iff]
  constructor
  · rintro ⟨m, hm, rfl, rfl⟩
    exact ⟨m, find?_eq_some_of_nodup h hm, rfl⟩
  · rintro ⟨m, hfind, rfl⟩
    exact ⟨m, List.mem_of_find?_eq_some hfind, by simpa using List.find?_some hfind, rfl⟩

theorem mem_groups_iff_groupOfTag? (h : (s.matchers.map (·.tag.name)).Nodup) :
    (group, tag) ∈ s.groups ↔ s.groupOfTag? tag = some group := by
  rw [mem_groups, groupOfTag?, matcher?, Option.map_eq_some_iff]
  constructor
  · rintro ⟨m, hm, rfl, rfl⟩
    exact ⟨m, find?_eq_some_of_nodup h hm, rfl⟩
  · rintro ⟨m, hfind, rfl⟩
    exact ⟨m, List.mem_of_find?_eq_some hfind, rfl, by simpa using List.find?_some hfind⟩

end pairs

/-- **Groups and tags belong to each other.**  Whatever the tags registered in turn are called, with
or without success, and whatever fingerprints their names have: the search for the name of a group
ends; the names of the groups are identifiers, all different; the groups are listed in the order of
the tags, one for each of them; and the tag of a group and the group of a tag are two ways to read
this list. -/
theorem groups_paired {hash : String → Nat} {definitions : List TagDefinition} {d : Delimiters}
    {s : TagScanner} (h : ofTagsBy hash (definitions.foldl TagSet.attempt ∅) d = .ok s) :
    (∀ tag taken, GroupName.plain tag ∈ taken →
      GroupName.searchWithin hash tag taken (taken.length + 1) 0 =
        some (GroupName.choose hash tag taken)) ∧
    (∀ m ∈ s.matchers, GroupName.IsIdentifier m.group.toList) ∧
    (s.groups.map Prod.fst).Nodup ∧
    s.groups.map Prod.snd = (definitions.foldl TagSet.attempt ∅).names ∧
    (∀ tag ∈ (definitions.foldl TagSet.attempt ∅).names, ∃! group, (group, tag) ∈ s.groups) ∧
    ∀ group tag,
      ((group, tag) ∈ s.groups ↔ s.tagOfGroup? group = some tag) ∧
      ((group, tag) ∈ s.groups ↔ s.groupOfTag? tag = some group) := by
  have hnodup := nodup_groupsBy h
  obtain ⟨htags, hgroups⟩ := map_tag_groupBy h
  have hnames : s.matchers.map (·.tag.name) = (definitions.foldl TagSet.attempt ∅).names := by
    rw [TagSet.names, ← htags, List.map_map]
    rfl
  have hempty : (∅ : TagSet).names.Nodup := List.nodup_nil
  have hdistinct : (s.matchers.map (·.tag.name)).Nodup := by
    rw [hnames]
    exact nodup_names_attempts definitions hempty
  have hfst : s.groups.map Prod.fst = s.matchers.map (·.group) := by
    simp [groups]
  have hsnd : s.groups.map Prod.snd = (definitions.foldl TagSet.attempt ∅).names := by
    rw [← hnames]
    simp [groups]
  refine ⟨fun tag taken => GroupName.searchWithin_eq, ?_, ?_, hsnd, ?_, ?_⟩
  · intro m hm
    have hmem : m.group ∈ s.matchers.map (·.group) := List.mem_map_of_mem hm
    rw [hgroups] at hmem
    obtain ⟨name, hname, hgroup⟩ := List.mem_map.mp hmem
    rw [← hgroup, String.toList_ofList]
    exact GroupName.isIdentifier_of_mem_chooseAll name hname
  · rw [hfst]
    exact hnodup
  · intro tag htag
    rw [← hsnd] at htag
    obtain ⟨⟨group, name⟩, hpair, rfl⟩ := List.mem_map.mp htag
    refine ⟨group, hpair, fun other hother => ?_⟩
    rw [mem_groups_iff_groupOfTag? hdistinct] at hpair hother
    rw [hother] at hpair
    exact Option.some.inj hpair
  · intro group tag
    exact ⟨mem_groups_iff_tagOfGroup? hnodup, mem_groups_iff_groupOfTag? hdistinct⟩

/-- A tag of that name, with the word `x` between the delimiters. -/
def plainTag (name : String) : TagDefinition where
  name := name
  pattern := "\x7bopen\x7dx\x7bclose\x7d"
  kind := .custom

/-- A tag whose pattern is refused. -/
def emptyTag : TagDefinition where
  name := "never"
  pattern := ""
  kind := .custom

/-- Names that come to the same identifier, all with the same fingerprint, one of which is the name
that another tag has been given for its group; a name without characters; and a definition that is
refused. -/
theorem groups_paired_alikeNames :
    let definitions := ["a b", "a-b", "a_b_000000", "a_b", ""].map plainTag ++ [emptyTag]
    ∃ s, ofTagsBy (fun _ => 0) (definitions.foldl TagSet.attempt ∅) {} = .ok s ∧
      s.groups = [("a_b", "a b"), ("a_b_000000", "a-b"), ("a_b_000000_000000", "a_b_000000"),
        ("a_b_000000_1", "a_b"), ("t_", "")] ∧
      (s.groups.map Prod.fst).Nodup ∧ s.tagOfGroup? "a_b_000000" = some "a-b" ∧
      s.groupOfTag? "a_b_000000" = some "a_b_000000_000000" := by
  intro definitions
  have hrun : (ofTagsBy (fun _ => 0) (definitions.foldl TagSet.attempt ∅) {}).toOption.map groups =
      some [("a_b", "a b"), ("a_b_000000", "a-b"), ("a_b_000000_000000", "a_b_000000"),
        ("a_b_000000_1", "a_b"), ("t_", "")] := by
    decide +kernel
  obtain ⟨s, hs, hgroups⟩ := Option.map_eq_some_iff.mp hrun
  have hok : ofTagsBy (fun _ => 0) (definitions.foldl TagSet.attempt ∅) {} = .ok s := by
    revert hs
    cases ofTagsBy (fun _ => 0) (definitions.foldl TagSet.attempt ∅) {} with
    | error e => exact nofun
    | ok t => exact fun hs => congrArg Except.ok (Option.some.inj hs)
  obtain ⟨_, _, hnodup, _, _, hpaired⟩ := groups_paired hok
  refine ⟨s, hok, hgroups, hnodup, ?_, ?_⟩
  · rw [← (hpaired _ _).1, hgroups]
    decide
  · rw [← (hpaired _ _).2, hgroups]
    decide

end TagScanner

end TagTemplate
