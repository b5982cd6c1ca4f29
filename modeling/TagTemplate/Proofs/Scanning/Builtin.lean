import TagTemplate.Proofs.Pattern.Reading
import TagTemplate.Proofs.Scanning.Advance
import TagTemplate.Tag.Builtin

/-! # The scanner of the known tags

The tags known from the start, under the usual delimiters, with the patterns that their definitions
denote.

* `ofTags_builtin`: the scanner made from the definitions.
* `unified_builtin`, `nodup_groups_builtin` and `advances_builtin`: it is read as it looks, and each
  round of it takes characters. -/

namespace TagTemplate

/-! ### Patterns of bodies -/

namespace Pattern

def blank : Pattern :=
  char (.union (.single ' ') (.single '\t'))

/-- A run between two quotes, with escapes. -/
def quotedRun (quote : Char) : Pattern :=
  seqAll [char (.single quote),
    star true (alt
      (char (.complement (.union (.single quote) (.union (.single '\\') (.single '\n')))))
      (seq (char (.single '\\')) (char (.complement (.single '\n'))))),
    char (.single quote)]

/-- A quoted run, or one character of a class. -/
def item (cs : CharClass) : Pattern :=
  alt (quotedRun '"') (alt (quotedRun '\'') (char cs))

/-- One step in a body between delimiters. -/
def bodyItem : Pattern :=
  item (.complement (.single '\n'))

/-- One step in the arguments of a directive. -/
def argumentItem : Pattern :=
  item (.complement (.union (.single '(') (.union (.single ')') (.single '\n'))))

/-- A letter or an underscore. -/
def nameStart : Pattern :=
  char (.union (.range 'A' 'Z') (.union (.range 'a' 'z') (.single '_')))

/-- A character of a name with dots. -/
def dottedPart : Pattern :=
  char (.union .word (.single '.'))

end Pattern

open Pattern

/-- The tags known from the start, in their order. -/
inductive BuiltinTag where
  | var
  | loopVar
  | expr
  | binding
  | conditional
  | whileLoop
  | eachLoop
  | untilLoop
  | await
  | comment
  | layout
  | slot
  | output
  | inclusion
  | moduleUse
  | definition
  | invocation
deriving DecidableEq, Repr

namespace BuiltinTag

/-- All tags, in their order. -/
def all : List BuiltinTag :=
  [var, loopVar, expr, binding, conditional, whileLoop, eachLoop, untilLoop, await, comment, layout,
    slot, output, inclusion, moduleUse, definition, invocation]

theorem mem_all (t : BuiltinTag) : t ∈ all := by
  cases t <;> decide

def spec (t : BuiltinTag) : TagDefinition :=
  TagDefinition.builtins.get ⟨t.ctorIdx, by cases t <;> decide⟩

def name : BuiltinTag → List Char
  | var => ['v', 'a', 'r']
  | loopVar => ['l', 'o', 'o', 'p', '_', 'v', 'a', 'r']
  | expr => ['e', 'x', 'p', 'r']
  | binding => ['l', 'e', 't']
  | conditional => ['i', 'f']
  | whileLoop => ['w', 'h', 'i', 'l', 'e']
  | eachLoop => ['e', 'a', 'c', 'h']
  | untilLoop => ['u', 'n', 't', 'i', 'l']
  | await => ['a', 'w', 'a', 'i', 't']
  | comment => ['c', 'o', 'm', 'm', 'e', 'n', 't']
  | layout => ['t', 'e', 'm', 'p', 'l', 'a', 't', 'e']
  | slot => ['s', 'e', 'c', 't', 'i', 'o', 'n']
  | output => ['o', 'u', 't', 'p', 'u', 't']
  | inclusion => ['i', 'n', 'c', 'l', 'u', 'd', 'e']
  | moduleUse => ['i', 'm', 'p', 'o', 'r', 't']
  | definition => ['m', 'a', 'c', 'r', 'o']
  | invocation => ['i', 'n', 'v', 'o', 'k', 'e']

/-- The characters that open a tag, before its body. -/
def lead (t : BuiltinTag) : List Char :=
  match t with
  | var => ['\x7b', '$']
  | loopVar => ['\x7b', '@']
  | expr => ['\x7b', '=']
  | comment => '\x7b' :: '#' :: t.name ++ ['\x7d']
  | binding | conditional | whileLoop | eachLoop | untilLoop | await => '\x7b' :: '#' :: t.name
  | layout | slot | output | inclusion | moduleUse | definition | invocation =>
    '@' :: t.name ++ ['(']

/-- The lead of a tag in its definition, without delimiters and parentheses. -/
def sign (t : BuiltinTag) : List Char :=
  match t with
  | var => ['$']
  | loopVar => []
  | expr => ['=']
  | binding | conditional | whileLoop | eachLoop | untilLoop | await | comment => '#' :: t.name
  | layout | slot | output | inclusion | moduleUse | definition | invocation => '@' :: t.name

/-- What the opening pattern of a tag asks for after the lead. -/
def remainder : BuiltinTag → List Pattern
  | var => [nameStart, star true dottedPart, alt (seq blank (star false bodyItem)) empty,
      char (.single '\x7d')]
  | loopVar => [nameStart, star true (char .word), char (.single '\x7d')]
  | expr => [star false bodyItem, char (.single '\x7d')]
  | comment => []
  | await => [alt (seq blank (star false bodyItem)) empty, char (.single '\x7d')]
  | binding | conditional | whileLoop | eachLoop | untilLoop =>
    [blank, star false bodyItem, char (.single '\x7d')]
  | layout | slot | output | inclusion | moduleUse | definition | invocation =>
    [star true argumentItem, char (.single ')')]

def opener (t : BuiltinTag) : Pattern :=
  seqAll (letters t.lead ++ t.remainder)

def closing? (t : BuiltinTag) : Option (List Char) :=
  match t with
  | conditional | whileLoop | eachLoop | untilLoop | await | comment =>
    some ('\x7b' :: '/' :: t.name ++ ['\x7d'])
  | slot | definition => some ('@' :: 'e' :: 'n' :: 'd' :: t.name)
  | _ => none

/-! ### Texts of patterns -/

def quotedTemplate (quote : Char) : List Char :=
  [quote, '(', '?', ':', '[', '^', quote, '\\', '\\', '\\', 'n', ']', '|', '\\', '\\', '.', ')', '*',
    quote]

/-- The text of the steps in a body, given that of a plain character. -/
def itemTemplate (plain : List Char) : List Char :=
  ['(', '?', ':'] ++ quotedTemplate '"' ++ ['|'] ++ quotedTemplate '\'' ++ ['|'] ++ plain ++
    [')', '*']

/-- The text of a body between delimiters. -/
def bodyTemplate : List Char :=
  itemTemplate ['[', '^', '\\', 'n', ']'] ++ ['?']

def argumentsTemplate : List Char :=
  itemTemplate ['[', '^', '(', ')', '\\', 'n', ']']

def blankTemplate : List Char :=
  ['[', ' ', '\\', 't', ']']

/-- The text of the opening pattern of a tag, with places for the delimiters. -/
def template (t : BuiltinTag) : List Char :=
  match t with
  | var =>
    (openPlace ++ ['\\', '$', '[', 'A', '-', 'Z', 'a', '-', 'z', '_', ']', '[', '\\', 'w', '.', ']',
      '*', '(', '?', ':'] ++ blankTemplate) ++ bodyTemplate ++ ([')', '?'] ++ closePlace)
  | loopVar =>
    openPlace ++ ['@', '[', 'A', '-', 'Z', 'a', '-', 'z', '_', ']', '\\', 'w', '*'] ++ closePlace
  | expr => (openPlace ++ ['=']) ++ bodyTemplate ++ closePlace
  | binding => (openPlace ++ '#' :: t.name ++ blankTemplate) ++ bodyTemplate ++ closePlace
  | conditional | whileLoop | eachLoop | untilLoop =>
    (openPlace ++ ['#']) ++ t.name ++ blankTemplate ++ bodyTemplate ++ closePlace
  | await =>
    (openPlace ++ '#' :: t.name ++ ['(', '?', ':'] ++ blankTemplate) ++ bodyTemplate ++
      ([')', '?'] ++ closePlace)
  | comment => openPlace ++ '#' :: t.name ++ closePlace
  | layout | slot | output | inclusion | moduleUse | definition | invocation =>
    ['@'] ++ t.name ++ ['\\', '('] ++ argumentsTemplate ++ ['\\', ')']

/-- The text of the opening pattern of a tag, with the delimiters filled in. -/
def source (t : BuiltinTag) : List Char :=
  Text.replace closePlace ['\\', '\x7d'] (Text.replace openPlace ['\\', '\x7b'] t.template)

/-- The opening pattern of a tag with its text. -/
def openerFragment (t : BuiltinTag) : Fragment :=
  ⟨.ofList t.source, t.opener⟩

/-- A closing tag as a pattern for itself. -/
def closerFragment (z : List Char) : Fragment :=
  ⟨escape (.ofList z), seqAll (letters z)⟩

/-- The patterns of a tag. -/
def matcher (t : BuiltinTag) : TagMatcher where
  tag := t.spec
  group := .ofList t.name
  opener := t.openerFragment
  closer := t.closing?.map closerFragment

theorem toList_escape_opening : (escape ({} : Delimiters).opening).toList = ['\\', '\x7b'] :=
  String.toList_ofList

theorem toList_escape_closing : (escape ({} : Delimiters).closing).toList = ['\\', '\x7d'] :=
  String.toList_ofList

theorem pattern_spec (t : BuiltinTag) : t.spec.pattern = .ofList t.template := by
  cases t with
  | loopVar | comment => rfl
  | var | expr | binding | await =>
      rw [template, String.ofList_append, String.ofList_append]
      rfl
  | conditional | whileLoop | eachLoop | untilLoop | layout | slot | output | inclusion
  | moduleUse | definition | invocation =>
      rw [template, String.ofList_append, String.ofList_append, String.ofList_append,
        String.ofList_append]
      rfl

theorem fillPlaces_pattern (t : BuiltinTag) :
    fillPlaces t.spec.pattern (escape ({} : Delimiters).opening)
      (escape ({} : Delimiters).closing) = .ofList t.source := by
  rw [fillPlaces, toList_escape_opening, toList_escape_closing, pattern_spec, String.toList_ofList]
  rfl

theorem opener_facts (t : BuiltinTag) : Pattern.parse? (.ofList t.source) = some t.opener ∧
    t.opener.groupNames = [] ∧ t.opener.isMatch #[] = false ∧ t.opener.stem = t.lead := by
  have hall : ∀ t ∈ all, ((read (t.source.length + 1) {} [] {} [] t.source).filter fun p =>
      weight p ≤ maxWeight) = some t.opener ∧
        t.opener.groupNames = [] ∧ t.opener.isMatch #[] = false ∧ t.opener.stem = t.lead := by
    decide +kernel
  obtain ⟨hread, hfacts⟩ := hall t (mem_all t)
  refine ⟨?_, hfacts⟩
  rw [Pattern.parse?, String.toList_ofList, hread]

theorem groupNames_opener (t : BuiltinTag) : t.opener.groupNames = [] :=
  (opener_facts t).2.1

theorem stem_opener (t : BuiltinTag) : t.opener.stem = t.lead :=
  (opener_facts t).2.2.2

theorem compile_opener (t : BuiltinTag) :
    Fragment.compile t.spec.name t.spec.pattern {} = .ok t.openerFragment := by
  rw [Fragment.compile]
  dsimp only
  rw [fillPlaces_pattern, (opener_facts t).1]
  dsimp only
  rw [groupNames_opener]
  dsimp only
  rw [(opener_facts t).2.2.1, if_neg Bool.false_ne_true]
  rfl

theorem compile_closer (t : BuiltinTag) :
    Fragment.compileClosing t.spec.name t.spec.closing {} =
      .ok (t.closing?.map closerFragment) := by
  cases t <;> rfl

/-! ### The scanner -/

theorem name_spec (t : BuiltinTag) : t.spec.name = .ofList t.name := by
  cases t <;> rfl

theorem toList_lead (t : BuiltinTag) : t.spec.lead.toList = t.sign := by
  have h : t.spec.lead = .ofList t.sign := by
    cases t with
    | var | loopVar | expr | binding | await | comment => rfl
    | conditional | whileLoop | eachLoop | untilLoop | layout | slot | output | inclusion
    | moduleUse | definition | invocation =>
        rw [sign, ← List.singleton_append, String.ofList_append]
        rfl
  rw [h, String.toList_ofList]

theorem definitions_builtin : TagSet.builtin.definitions = all.map spec :=
  rfl

theorem chooseAll_of_nodup {hash : String → Nat} : ∀ {tags : List String}
    {taken : List (List Char)}, (∀ tag ∈ tags, GroupName.plain tag ∉ taken) →
      (tags.map GroupName.plain).Nodup →
      GroupName.chooseAll hash taken tags = tags.map GroupName.plain
  | [], _, _, _ => rfl
  | tag :: tags, taken, htaken, hn => by
      rw [List.map_cons, List.nodup_cons] at hn
      have hchoose : GroupName.choose hash tag taken = GroupName.plain tag :=
        if_neg (htaken tag List.mem_cons_self)
      have hfree : ∀ other ∈ tags, GroupName.plain other ∉ GroupName.plain tag :: taken := by
        intro other hother hmem
        rcases List.mem_cons.mp hmem with heq | hmem
        · exact hn.1 (heq ▸ List.mem_map_of_mem hother)
        · exact htaken other (List.mem_cons_of_mem tag hother) hmem
      rw [GroupName.chooseAll, hchoose, List.map_cons]
      exact congrArg _ (chooseAll_of_nodup hfree hn.2)

theorem groups_builtin :
    (GroupName.chooseAll Text.fingerprint [] TagSet.builtin.names).map String.ofList =
      all.map fun t => .ofList t.name := by
  have hplain : TagSet.builtin.names.map GroupName.plain = all.map name := by
    rw [TagSet.names, definitions_builtin, List.map_map, List.map_map]
    refine List.map_congr_left fun t _ => ?_
    rw [Function.comp_apply, Function.comp_apply, name_spec, GroupName.plain, String.toList_ofList]
    cases t <;> rfl
  rw [chooseAll_of_nodup (fun _ _ => List.not_mem_nil) (by rw [hplain]; decide), hplain,
    List.map_map]
  rfl

end BuiltinTag

namespace TagScanner

open BuiltinTag

theorem matchersOf_map {α : Type} {d : Delimiters} {f : α → TagDefinition × String}
    {g : α → TagMatcher} : ∀ {l : List α},
      (∀ a ∈ l, Fragment.compile (f a).1.name (f a).1.pattern d = .ok (g a).opener ∧
        Fragment.compileClosing (f a).1.name (f a).1.closing d = .ok (g a).closer ∧
        (g a).tag = (f a).1 ∧ (g a).group = (f a).2) →
      matchersOf d (l.map f) = .ok (l.map g)
  | [], _ => rfl
  | a :: l, h => by
      obtain ⟨ho, hc, htag, hgroup⟩ := h a List.mem_cons_self
      have ih := matchersOf_map fun b hb => h b (List.mem_cons_of_mem a hb)
      rw [List.map_cons, matchersOf, ho, hc, ih, ← htag, ← hgroup]
      rfl

theorem matchersOf_builtin :
    matchersOf {} (TagSet.builtin.definitions.zip
      ((GroupName.chooseAll Text.fingerprint [] TagSet.builtin.names).map String.ofList)) =
        .ok (all.map matcher) := by
  rw [groups_builtin, definitions_builtin, List.zip_map']
  exact matchersOf_map fun t _ => ⟨compile_opener t, compile_closer t, rfl, rfl⟩

theorem toList_unifiedSource : (unifiedSource (all.map matcher)).toList =
    ['|'].intercalate
      (all.map fun t => ['(', '?', 'P', '<'] ++ t.name ++ ['>'] ++ t.source ++ [')']) := by
  have hgroup (t : BuiltinTag) : (groupSource t.matcher).toList =
      ['(', '?', 'P', '<'] ++ t.name ++ ['>'] ++ t.source ++ [')'] := by
    have hopen : "(?P<".toList = ['(', '?', 'P', '<'] := String.toList_ofList
    have hmid : ">".toList = ['>'] := String.toList_ofList
    have hclose : ")".toList = [')'] := String.toList_ofList
    simp only [groupSource, matcher, openerFragment, String.toList_append, String.toList_ofList,
      hopen, hmid, hclose]
  have hbar : "|".toList = ['|'] := String.toList_ofList
  rw [unifiedSource, if_neg (by decide), String.toList_intercalate, hbar, List.map_map,
    List.map_map]
  exact congrArg _ (List.map_congr_left fun t _ => hgroup t)

theorem parse?_unifiedSource : Pattern.parse? (unifiedSource (all.map matcher)) =
    some (alternatives (all.map matcher)) := by
  rw [Pattern.parse?, toList_unifiedSource]
  decide +kernel

def builtin : TagScanner where
  delimiters := {}
  matchers := all.map matcher
  source := unifiedSource (all.map matcher)
  pattern := alternatives (all.map matcher)

theorem ofTags_builtin : ofTags .builtin {} = .ok builtin :=
  ofTags_of_parts rfl matchersOf_builtin parse?_unifiedSource

theorem unified_builtin : builtin.Unified :=
  fun _ => rfl

theorem nodup_groups_builtin : (builtin.matchers.map (·.group)).Nodup := by
  have h : builtin.matchers.map (·.group) = (all.map name).map String.ofList := by
    rw [builtin, List.map_map, List.map_map]
    rfl
  rw [h]
  exact List.Pairwise.map String.ofList (fun _ _ hne heq => hne (String.ofList_injective heq))
    (by decide : (all.map name).Nodup)

theorem mem_matchers_builtin {m : TagMatcher} :
    m ∈ builtin.matchers ↔ ∃ t : BuiltinTag, t.matcher = m := by
  rw [builtin, List.mem_map]
  exact ⟨fun ⟨t, _, h⟩ => ⟨t, h⟩, fun ⟨t, h⟩ => ⟨t, mem_all t, h⟩⟩

theorem groupNames_builtin : ∀ m ∈ builtin.matchers, m.opener.pattern.groupNames = [] := by
  intro m hm
  obtain ⟨t, rfl⟩ := mem_matchers_builtin.mp hm
  exact groupNames_opener t

theorem advances_builtin : builtin.Advances := by
  refine (advances_iff ofTags_builtin unified_builtin).2 fun m hm p hp => ?_
  obtain ⟨t, rfl⟩ := mem_matchers_builtin.mp hm
  have hsteady : ∀ p ∈ t.matcher.patterns, p.Steady := by
    cases t <;> decide
  exact (hsteady p hp).decided

end TagScanner

/-! ### Marks -/

namespace BuiltinTag

/-- The beginnings of all opening and closing tags. -/
def marks : List (List Char) :=
  all.map lead ++ all.filterMap closing?

theorem lead_mem_marks (t : BuiltinTag) : t.lead ∈ marks :=
  List.mem_append_left _ (List.mem_map_of_mem (mem_all t))

theorem closing_mem_marks {t : BuiltinTag} {z : List Char} (h : t.closing? = some z) :
    z ∈ marks :=
  List.mem_append_right _ (List.mem_filterMap.mpr ⟨t, mem_all t, h⟩)

theorem bland_of_not_mem {l : List Char} (h : '\x7b' ∉ l ∧ '@' ∉ l) :
    ∀ c ∈ l, c ≠ '\x7b' ∧ c ≠ '@' :=
  fun _ hc => ⟨fun heq => h.1 (heq ▸ hc), fun heq => h.2 (heq ▸ hc)⟩

/-- No mark begins with another, and there are no two for one purpose.  They begin with a brace or
an at sign, which stand nowhere else in them but in the mark of loop variables. -/
theorem mark_facts :
    (∀ v ∈ marks, ∀ w ∈ marks, v <+: w → v = w) ∧
    (∀ w ∈ marks, w.head? = some '\x7b' ∨ w.head? = some '@') ∧
    (∀ w ∈ marks, w ≠ loopVar.lead → '\x7b' ∉ w.tail ∧ '@' ∉ w.tail) ∧
    (∀ t ∈ all, ∀ u ∈ all, t.lead = u.lead → t = u) ∧
    (∀ t ∈ all, ∀ u ∈ all, t.closing?.isSome → t.closing? = u.closing? → t = u) ∧
    ∀ t ∈ all, ∀ u ∈ all, u.closing? ≠ some t.lead := by
  decide +kernel

/-- At most one mark stands at a place. -/
theorem mark_unique {v w l : List Char} (hv : v ∈ marks) (hw : w ∈ marks) (hvl : v <+: l)
    (hwl : w <+: l) : v = w := by
  rcases List.prefix_or_prefix_of_prefix hvl hwl with h | h
  · exact mark_facts.1 v hv w hw h
  · exact (mark_facts.1 w hw v hv h).symm

theorem bland_tail_mark {w : List Char} (hw : w ∈ marks) (hne : w ≠ loopVar.lead) :
    ∀ c ∈ w.tail, c ≠ '\x7b' ∧ c ≠ '@' :=
  bland_of_not_mem (mark_facts.2.2.1 w hw hne)

theorem lead_injective {t u : BuiltinTag} (h : t.lead = u.lead) : t = u :=
  mark_facts.2.2.2.1 t (mem_all t) u (mem_all u) h

theorem closing_injective {t u : BuiltinTag} {z : List Char} (ht : t.closing? = some z)
    (hu : u.closing? = some z) : t = u :=
  mark_facts.2.2.2.2.1 t (mem_all t) u (mem_all u) (by rw [ht]; rfl) (ht.trans hu.symm)

theorem lead_ne_closing {t u : BuiltinTag} {z : List Char} (hu : u.closing? = some z) :
    t.lead ≠ z :=
  fun h => mark_facts.2.2.2.2.2 t (mem_all t) u (mem_all u) (h ▸ hu)

/-- No mark stands at a place. -/
def Still (l : List Char) : Prop :=
  ∀ w ∈ marks, ¬ w <+: l

/-- All marks begin with a brace or an at sign. -/
theorem still_of_head {c : Char} {l : List Char} (h₁ : c ≠ '\x7b') (h₂ : c ≠ '@') :
    Still (c :: l) := by
  rintro w hw ⟨t, ht⟩
  cases w with
  | nil => rcases mark_facts.2.1 [] hw with h | h <;> cases h
  | cons d w =>
      have hd : d = c := (List.cons.inj ht).1
      rcases mark_facts.2.1 _ hw with h | h
      · exact h₁ (hd ▸ Option.some.inj h)
      · exact h₂ (hd ▸ Option.some.inj h)

theorem still_nil : Still [] := by
  intro w hw h
  obtain rfl := List.prefix_nil.mp h
  rcases mark_facts.2.1 [] hw with h | h <;> cases h

end BuiltinTag

end TagTemplate
