import TagTemplate.Proofs.Scanning.Groups

/-! # Registered tags

A set of tags is kept as a table: the definitions in the order in which their names were first
registered, and an index of the places of the names.  A call to register a definition leaves the
table as it is, or it puts the definition where the index leads from its name, or behind the others.
The index is in step with the definitions all the time, so the table is a set of tags with the names
in order.

* `TagTable.toSet_registerEach`: the table goes through the same states as the set.
* `TagTable.registerEach_eq`: what calls come to depends only on those that succeed.
* `TagTable.registerEach_ordered`: what a sequence of calls leaves, and what is scanned with it. -/

namespace TagTemplate

/-! ### Sets with different names -/

namespace TagSet

variable {d : TagDefinition} {definitions : List TagDefinition}

theorem put_of_notMem (h : d.name ∉ definitions.map (·.name)) :
    put d definitions = definitions ++ [d] := by
  induction definitions with
  | nil => rfl
  | cons e rest ih =>
      rw [List.map_cons, List.mem_cons, not_or] at h
      rw [put, if_neg (Ne.symm h.1), ih h.2]
      rfl

theorem put_eq_set (hnodup : (definitions.map (·.name)).Nodup) {i : Nat}
    (h : (definitions.map (·.name))[i]? = some d.name) :
    put d definitions = definitions.set i d := by
  -- no definition before the place has the name, so `put` goes past them
  induction definitions generalizing i with
  | nil => cases h
  | cons e rest ih =>
      rw [List.map_cons, List.nodup_cons] at hnodup
      cases i with
      | zero =>
          have he : e.name = d.name := Option.some.inj h
          rw [put, if_pos he]
          rfl
      | succ i =>
          have hrest : (rest.map (·.name))[i]? = some d.name := h
          have hne : e.name ≠ d.name := fun he => hnodup.1 (he ▸ List.mem_of_getElem? hrest)
          rw [put, if_neg hne, ih hnodup.2 hrest]
          rfl

end TagSet

/-! ### Tables -/

theorem getElem?_concat_eq_some {α : Type} {l : List α} {a b : α} {i : Nat} :
    (l ++ [a])[i]? = some b ↔ l[i]? = some b ∨ i = l.length ∧ a = b := by
  grind

/-- The definitions of a set of tags with an index: a name leads to the place of its definition, and
to no other place. -/
structure TagTable where
  definitions : List TagDefinition
  index : NameMap Nat
  inStep : ∀ name i, index.get? name = some i ↔ (definitions.map (·.name))[i]? = some name

namespace TagTable

instance : EmptyCollection TagTable where
  emptyCollection := ⟨[], ∅, fun name i => by simp⟩

/-- The definition at the place to which the index leads. -/
def get? (t : TagTable) (name : String) : Option TagDefinition :=
  (t.index.get? name).bind fun i => t.definitions[i]?

def contains (t : TagTable) (name : String) : Bool :=
  (t.index.get? name).isSome

def names (t : TagTable) : List String :=
  t.definitions.map (·.name)

def size (t : TagTable) : Nat :=
  t.definitions.length

/-- The table without its index. -/
def toSet (t : TagTable) : TagSet :=
  ⟨t.definitions⟩

theorem inStep_set (t : TagTable) {d : TagDefinition} {i : Nat} (h : t.index.get? d.name = some i)
    (name : String) (j : Nat) :
    t.index.get? name = some j ↔ ((t.definitions.set i d).map (·.name))[j]? = some name := by
  obtain ⟨hi, hname⟩ := List.getElem?_eq_some_iff.mp ((t.inStep d.name i).mp h)
  have hsame : (t.definitions.set i d).map (·.name) = t.definitions.map (·.name) := by
    rw [List.map_set, ← hname, List.set_getElem_self]
  rw [hsame, t.inStep]

theorem inStep_append (t : TagTable) {d : TagDefinition} (h : t.index.get? d.name = none)
    (name : String) (j : Nat) :
    (t.index.insert d.name t.definitions.length).get? name = some j ↔
      ((t.definitions ++ [d]).map (·.name))[j]? = some name := by
  have hnew (k : Nat) : (t.definitions.map (·.name))[k]? ≠ some d.name := by
    intro hk
    rw [(t.inStep d.name k).mpr hk] at h
    cases h
  rw [NameMap.get?_insert, List.map_append, List.map_singleton, getElem?_concat_eq_some,
    List.length_map]
  split
  · next hname =>
    subst hname
    rw [or_iff_right (hnew j), Option.some_inj]
    exact ⟨fun hj => ⟨hj.symm, rfl⟩, fun hj => hj.1.symm⟩
  · next hname => rw [t.inStep, or_iff_left fun hj => hname hj.2.symm]

/-- The table with a definition put at the place of its name, or behind the others. -/
def store (t : TagTable) (d : TagDefinition) : TagTable :=
  match h : t.index.get? d.name with
  | some i => ⟨t.definitions.set i d, t.index, t.inStep_set h⟩
  | none => ⟨t.definitions ++ [d], t.index.insert d.name t.definitions.length, t.inStep_append h⟩

/-- A call to register a definition: whether it is accepted, and the table behind the call. -/
def register (t : TagTable) (d : TagDefinition) : Except TagError Unit × TagTable :=
  match Fragment.compile d.name d.pattern {} with
  | .error e => (.error e, t)
  | .ok _ =>
    match Fragment.compileClosing d.name d.closing {} with
    | .error e => (.error e, t)
    | .ok _ => (.ok (), t.store d)

/-- One call after another: the definitions of those that succeed, and the table behind the last. -/
def registerEach (t : TagTable) : List TagDefinition → List TagDefinition × TagTable
  | [] => ([], t)
  | d :: ds =>
    match t.register d with
    | (.error _, next) => next.registerEach ds
    | (.ok _, next) => (d :: (next.registerEach ds).1, (next.registerEach ds).2)

/-! ### In step with the set -/

theorem nodup_names (t : TagTable) : t.names.Nodup := by
  rw [List.nodup_iff_getElem?_ne_getElem?]
  intro i j hij hj heq
  have hat : t.names[j]? = some t.names[j] := List.getElem?_eq_getElem hj
  have hi := (t.inStep _ i).mpr (heq.trans hat)
  rw [(t.inStep _ j).mpr hat] at hi
  exact absurd (Option.some.inj hi) (by omega)

theorem notMem_names_of_index {t : TagTable} {name : String} (h : t.index.get? name = none) :
    name ∉ t.names := by
  intro hmem
  obtain ⟨i, hi⟩ := List.getElem?_of_mem hmem
  rw [(t.inStep name i).mpr hi] at h
  cases h

theorem exists_of_index {t : TagTable} {name : String} {i : Nat}
    (h : t.index.get? name = some i) : ∃ d, t.definitions[i]? = some d ∧ d.name = name := by
  have hat := (t.inStep name i).mp h
  rwa [List.getElem?_map, Option.map_eq_some_iff] at hat

theorem get?_eq (t : TagTable) (name : String) : t.get? name = t.toSet.get? name := by
  cases h : t.index.get? name with
  | none =>
      rw [get?, h, TagSet.get?, Option.bind_none, eq_comm, List.find?_eq_none]
      intro d hd hname
      apply notMem_names_of_index h
      rw [← of_decide_eq_true hname]
      exact List.mem_map_of_mem hd
  | some i =>
      obtain ⟨d, hd, rfl⟩ := exists_of_index h
      rw [get?, h, Option.bind_some, hd]
      exact (TagScanner.find?_eq_some_of_nodup t.nodup_names (List.mem_of_getElem? hd)).symm

theorem contains_eq (t : TagTable) (name : String) : t.contains name = (t.get? name).isSome := by
  rw [contains, get?]
  cases h : t.index.get? name with
  | none => rfl
  | some i =>
      obtain ⟨d, hd, -⟩ := exists_of_index h
      rw [Option.bind_some, hd]
      rfl

theorem toSet_store (t : TagTable) (d : TagDefinition) :
    (t.store d).toSet = ⟨TagSet.put d t.definitions⟩ := by
  unfold store
  split
  · next i h => rw [toSet, TagSet.put_eq_set t.nodup_names ((t.inStep d.name i).mp h)]
  · next h => rw [toSet, TagSet.put_of_notMem (notMem_names_of_index h)]

theorem get?_store (t : TagTable) (d : TagDefinition) (name : String) :
    (t.store d).get? name = if d.name = name then some d else t.get? name := by
  rw [get?_eq, toSet_store, get?_eq]
  exact TagSet.find?_put d name t.definitions

theorem names_store (t : TagTable) (d : TagDefinition) :
    (t.store d).names = if d.name ∈ t.names then t.names else t.names ++ [d.name] := by
  have hdefinitions := congrArg TagSet.definitions (t.toSet_store d)
  rw [names, show (t.store d).definitions = TagSet.put d t.definitions from hdefinitions]
  exact TagSet.map_name_put d t.definitions

/-! ### Calls -/

theorem eraseDups_of_nodup {l : List String} (h : l.Nodup) : l.eraseDups = l := by
  induction l with
  | nil => rfl
  | cons a l ih =>
      rw [List.nodup_cons] at h
      have hfilter : l.filter (fun b => !b == a) = l := by
        refine List.filter_eq_self.mpr fun b hb => ?_
        have hne : b ≠ a := fun heq => h.1 (heq ▸ hb)
        simpa using hne
      rw [List.eraseDups_cons, hfilter, ih h.2]

theorem eraseDups_append_cons {l : List String} {a : String} (h : a ∈ l) (m : List String) :
    (l ++ a :: m).eraseDups = (l ++ m).eraseDups := by
  rw [List.eraseDups_append, List.eraseDups_append, List.cons_removeAll,
    if_neg (by simpa using h)]

/-- A call fails and leaves the table as it is, or it stores the definition.  The set does the
same. -/
theorem register_cases (t : TagTable) (d : TagDefinition) :
    (∃ e, t.register d = (.error e, t) ∧ t.toSet.register d = .error e) ∨
    (t.register d = (.ok (), t.store d) ∧ t.toSet.register d = .ok (t.store d).toSet) := by
  rw [toSet_store]
  unfold register TagSet.register
  cases Fragment.compile d.name d.pattern {} with
  | error e => exact .inl ⟨e, rfl, rfl⟩
  | ok opener =>
      cases Fragment.compileClosing d.name d.closing {} with
      | error e => exact .inl ⟨e, rfl, rfl⟩
      | ok closer => exact .inr ⟨rfl, rfl⟩

/-- The calls come to what storing the definitions of those that succeed comes to. -/
theorem registerEach_eq (ds : List TagDefinition) : ∀ t : TagTable,
    (t.registerEach ds).2 = (t.registerEach ds).1.foldl store t := by
  induction ds with
  | nil => exact fun t => rfl
  | cons d ds ih =>
      intro t
      rw [registerEach]
      rcases t.register_cases d with ⟨e, h, -⟩ | ⟨h, -⟩
      · rw [h]
        exact ih t
      · rw [h]
        exact ih (t.store d)

theorem toSet_registerEach (ds : List TagDefinition) : ∀ t : TagTable,
    (t.registerEach ds).2.toSet = ds.foldl TagSet.attempt t.toSet := by
  induction ds with
  | nil => exact fun t => rfl
  | cons d ds ih =>
      intro t
      rw [registerEach, List.foldl_cons, TagSet.attempt]
      rcases t.register_cases d with ⟨e, h, hset⟩ | ⟨h, hset⟩
      · rw [h, hset]
        exact ih t
      · rw [h, hset]
        exact ih (t.store d)

theorem get?_foldl_store (ds : List TagDefinition) (name : String) : ∀ t : TagTable,
    (ds.foldl store t).get? name =
      (ds.reverse.find? fun d => d.name = name).or (t.get? name) := by
  induction ds with
  | nil => exact fun t => (Option.none_or).symm
  | cons d ds ih =>
      intro t
      rw [List.foldl_cons, ih, get?_store, List.reverse_cons, List.find?_append, Option.or_assoc]
      congr 1
      by_cases h : d.name = name <;> simp [h]

theorem names_foldl_store (ds : List TagDefinition) : ∀ t : TagTable,
    (ds.foldl store t).names = (t.names ++ ds.map (·.name)).eraseDups := by
  induction ds with
  | nil =>
      intro t
      rw [List.map_nil, List.append_nil, eraseDups_of_nodup t.nodup_names]
      rfl
  | cons d ds ih =>
      intro t
      rw [List.foldl_cons, ih, names_store, List.map_cons]
      split
      · next hmem => rw [eraseDups_append_cons hmem]
      · rw [List.append_assoc]
        rfl

/-- The table holds what was in `start` and the definitions registered since then with success: each
name once, in the order in which it was first registered, with the last definition of it. -/
structure Holds (t start : TagTable) (registered : List TagDefinition) : Prop where
  get?_eq : ∀ name, t.get? name =
    (registered.reverse.find? fun d => d.name = name).or (start.get? name)
  names_eq : t.names = (start.names ++ registered.map (·.name)).eraseDups
  nodup_names : t.names.Nodup
  contains_eq : ∀ name, t.contains name = (t.get? name).isSome
  mem_names_iff : ∀ name, name ∈ t.names ↔ (t.get? name).isSome
  size_eq : t.size = t.names.length
  definitions_eq : t.definitions.map some = t.names.map t.get?

/-- The table answers as the set does. -/
structure Shows (t : TagTable) (s : TagSet) : Prop where
  get?_eq : ∀ name, t.get? name = s.get? name
  contains_eq : ∀ name, t.contains name = s.contains name
  names_eq : t.names = s.names
  size_eq : t.size = s.size

theorem shows_toSet (t : TagTable) : t.Shows t.toSet where
  get?_eq := t.get?_eq
  contains_eq name := by rw [t.contains_eq, t.get?_eq]; rfl
  names_eq := rfl
  size_eq := rfl

theorem mem_names_iff (t : TagTable) (name : String) : name ∈ t.names ↔ (t.get? name).isSome := by
  rw [t.get?_eq, TagSet.get?, List.find?_isSome, names, List.mem_map]
  simp only [decide_eq_true_eq]
  rfl

theorem definitions_eq (t : TagTable) : t.definitions.map some = t.names.map t.get? := by
  rw [names, List.map_map]
  apply List.map_congr_left
  intro d hd
  rw [Function.comp_apply, t.get?_eq]
  exact (TagScanner.find?_eq_some_of_nodup t.nodup_names hd).symm

theorem holds_foldl_store (start : TagTable) (ds : List TagDefinition) :
    (ds.foldl store start).Holds start ds where
  get?_eq name := get?_foldl_store ds name start
  names_eq := names_foldl_store ds start
  nodup_names := TagTable.nodup_names _
  contains_eq := TagTable.contains_eq _
  mem_names_iff := TagTable.mem_names_iff _
  size_eq := (List.length_map _).symm
  definitions_eq := TagTable.definitions_eq _

end TagTable

/-! ### What is scanned -/

namespace TagScanner

/-- The scanner looks for the tags with these definitions, in their order: as the alternatives of
its pattern, and when it skips raw blocks. -/
structure LooksFor (s : TagScanner) (definitions : List TagDefinition) (d : Delimiters) : Prop where
  delimiters_eq : s.delimiters = d
  matchers : List.Forall₂ (fun m e => m.tag = e ∧
    Fragment.compile e.name e.pattern d = .ok m.opener ∧
    Fragment.compileClosing e.name e.closing d = .ok m.closer) s.matchers definitions
  source_eq : s.source = unifiedSource s.matchers
  parse_eq : Pattern.parse? s.source = some s.pattern
  rawOpeners_eq : ∀ tag text pos limit, s.rawOpeners tag text pos limit =
    (definitions.filter fun e => e.rawBody ∧ e.name ≠ tag).filterMap fun e =>
      (s.matcher? e.name).bind fun m =>
        ((m.opener.pattern.find? text pos).filter fun o => o.start < limit).map (m, ·)

theorem looksFor_ofTags {tags : TagSet} (hnames : tags.names.Nodup) {d : Delimiters}
    {s : TagScanner} (h : ofTags tags d = .ok s) : s.LooksFor tags.definitions d := by
  obtain ⟨-, hmatchers, hparse, hdelimiters, hsource⟩ := ofTags_ok h
  have htags := (map_tag_group h).1
  have hdistinct : (s.matchers.map (·.tag.name)).Nodup := by
    rw [TagSet.names, ← htags, List.map_map] at hnames
    exact hnames
  refine ⟨hdelimiters, ?_, hsource, hsource ▸ hparse, fun tag text pos limit => ?_⟩
  · rw [← htags, List.forall₂_map_right_iff, List.forall₂_same]
    exact fun m hm => ⟨rfl, compiled_of_mem_matchersOf hmatchers hm⟩
  · rw [← htags, List.filterMap_filter, List.filterMap_map, rawOpeners]
    refine List.filterMap_congr fun m hm => ?_
    have hown : s.matcher? m.tag.name = some m := find?_eq_some_of_nodup hdistinct hm
    simp only [Function.comp_apply, hown, Option.bind_some, decide_eq_true_eq]

end TagScanner

/-! ### Sequences of calls -/

namespace TagTable

/-- **Registered tags are an ordered map.**  A call fails exactly if the set of tags refuses
the definition, and then it leaves the table as it was.  After any sequence of calls the table holds
what those have registered that succeeded: for each name the last definition, and the names in the
order in which they were first registered.  The set goes through the same states and gives the same
answers, and the scanners that are made of it look for these definitions in this order. -/
theorem registerEach_ordered (start : TagTable) (ds : List TagDefinition) :
    (∀ (t : TagTable) (d : TagDefinition),
      (t.register d).1 = (t.toSet.register d).map (fun _ => ()) ∧
      ∀ e, (t.register d).1 = .error e → (t.register d).2 = t) ∧
    (start.registerEach ds).2.Holds start (start.registerEach ds).1 ∧
    (start.registerEach ds).2.Shows (ds.foldl TagSet.attempt start.toSet) ∧
    ∀ (d : Delimiters) (s : TagScanner),
      TagScanner.ofTags (ds.foldl TagSet.attempt start.toSet) d = .ok s →
        s.LooksFor (start.registerEach ds).2.definitions d := by
  refine ⟨fun t d => ?_, ?_, ?_, fun d s hs => ?_⟩
  · rcases t.register_cases d with ⟨e, h, hset⟩ | ⟨h, hset⟩
    · rw [h, hset]
      exact ⟨rfl, fun _ _ => rfl⟩
    · rw [h, hset]
      exact ⟨rfl, nofun⟩
  · rw [registerEach_eq]
    exact holds_foldl_store start _
  · rw [← toSet_registerEach]
    exact shows_toSet _
  · have hnames : (start.registerEach ds).2.toSet.names.Nodup := nodup_names _
    rw [← toSet_registerEach] at hs
    exact TagScanner.looksFor_ofTags hnames hs

/-- A tag of that name with a pattern of its own. -/
def wordTag (name word : String) : TagDefinition :=
  { TagScanner.plainTag name with pattern := word }

/-- Two tags are new, one takes the place of the first, and one is refused. -/
theorem registerEach_ordered_anew :
    let start := (∅ : TagTable).store (wordTag "a" "x")
    let ds := [wordTag "b" "y", TagScanner.emptyTag, wordTag "a" "z", wordTag "c" "x"]
    (start.registerEach ds).1 = [wordTag "b" "y", wordTag "a" "z", wordTag "c" "x"] ∧
    (start.registerEach ds).2.names = ["a", "b", "c"] ∧
    (start.registerEach ds).2.get? "a" = some (wordTag "a" "z") ∧
    (start.registerEach ds).2.contains "never" = false ∧
    ∃ s, TagScanner.ofTags (ds.foldl TagSet.attempt start.toSet) {} = .ok s ∧
      s.LooksFor [wordTag "a" "z", wordTag "b" "y", wordTag "c" "x"] {} := by
  intro start ds
  have hregistered : (start.registerEach ds).1 =
      [wordTag "b" "y", wordTag "a" "z", wordTag "c" "x"] := by
    decide +kernel
  have hdefinitions : (start.registerEach ds).2.definitions =
      [wordTag "a" "z", wordTag "b" "y", wordTag "c" "x"] := by
    decide +kernel
  have hok : (TagScanner.ofTags (ds.foldl TagSet.attempt start.toSet) {}).isOk = true := by
    decide +kernel
  obtain ⟨-, hholds, -, hscans⟩ := registerEach_ordered start ds
  rw [hdefinitions] at hscans
  refine ⟨hregistered, ?_, ?_, ?_, ?_⟩
  · rw [hholds.names_eq, hregistered]
    decide +kernel
  · rw [hholds.get?_eq, hregistered]
    decide +kernel
  · rw [hholds.contains_eq, hholds.get?_eq, hregistered]
    decide +kernel
  · cases hs : TagScanner.ofTags (ds.foldl TagSet.attempt start.toSet) {} with
    | error e =>
        rw [hs] at hok
        cases hok
    | ok s => exact ⟨s, rfl, hscans {} s hs⟩

end TagTable

end TagTemplate
