import TagTemplate.Proofs.Pattern.Notation
import TagTemplate.Proofs.Pattern.Windows
import TagTemplate.Proofs.Scanning.TagByTag
import TagTemplate.Proofs.Text.Splitting

/-! # The known tags under any delimiters

The patterns of the tags known from the start take the delimiters as texts for themselves.  Under
any delimiters that are accepted the pattern of all tags is what its text looks like, and each
pattern takes a character whenever it matches.

* `fill_places`: the text of a pattern with delimiters filled in.
* `advances_ofTags_builtin`: the scanner of the known tags goes forward under any delimiters. -/

namespace TagTemplate

open Pattern

/-! ### Filling in delimiters -/

/-- No place for a delimiter begins in a text without opening braces. -/
theorem free_of_not_mem {c : Char} {w a l : List Char} (h : c ∉ a) : Free (· = c :: w) a l := by
  rintro x y rfl hne v rfl ⟨t, ht⟩
  obtain ⟨d, y, rfl⟩ := List.exists_cons_of_ne_nil hne
  obtain rfl : c = d := (List.cons.inj ht).1
  exact h (List.mem_append_right x List.mem_cons_self)

/-- A place for a delimiter does not begin at a character whose rest does not follow. -/
theorem free_singleton {c d : Char} {w l : List Char} (h : ¬ w <+: l) :
    Free (· = d :: w) [c] l := by
  rintro x y hxy hne v rfl ⟨t, ht⟩
  have hy : y = [c] := by
    rcases x with _ | ⟨e, x⟩
    · exact hxy.symm
    · exact absurd (List.append_eq_nil_iff.mp (List.cons.inj hxy).2.symm).2 hne
  subst hy
  exact h ⟨t, (List.cons.inj ht).2⟩

/-- A text with a sign that no backslash stands before does not begin an escaped text. -/
theorem not_isPrefix_escaped {l : List Char} : ∀ {w s : List Char}, '\\' ∉ w →
    (∃ c ∈ w, isMeta c = true) → (∀ c ∈ l.head?, c ∉ w) → ¬ w <+: escaped s ++ l
  | [], _, _, hsign, _ => by
      obtain ⟨c, hc, _⟩ := hsign
      exact absurd hc List.not_mem_nil
  | c :: w, [], hback, hsign, hl => by
      rintro ⟨t, ht⟩
      refine hl c ?_ List.mem_cons_self
      have hhead := congrArg List.head? ht
      exact hhead.symm
  | c :: w, d :: s, hback, hsign, hl => by
      rintro ⟨t, ht⟩
      rw [escaped_cons] at ht
      split at ht
      · next hd =>
        have hc : c = '\\' := (List.cons.inj ht).1
        exact hback (hc ▸ List.mem_cons_self)
      · next hd =>
        obtain ⟨hcd, htail⟩ := List.cons.inj ht
        have hsign' : ∃ x ∈ w, isMeta x = true := by
          obtain ⟨x, hx, hmeta⟩ := hsign
          rcases List.mem_cons.mp hx with rfl | hx
          · exact absurd (hcd ▸ hmeta) hd
          · exact ⟨x, hx, hmeta⟩
        exact not_isPrefix_escaped (fun h => hback (List.mem_cons_of_mem c h)) hsign'
          (fun x hx h => hl x hx (List.mem_cons_of_mem c h)) ⟨t, htail⟩

theorem free_escaped {l : List Char} (hl : ∀ c ∈ l.head?, c ∉ closePlace) :
    ∀ s : List Char, Free (· = closePlace) (escaped s) l
  | [] => .nil
  | c :: s => by
      have hrest : ¬ ['c', 'l', 'o', 's', 'e', '\x7d'] <+: escaped s ++ l := by
        refine not_isPrefix_escaped (by decide) ⟨'\x7d', by decide, rfl⟩ fun c hc h => ?_
        exact hl c hc (List.mem_cons_of_mem _ h)
      rw [escaped_cons]
      refine .append ?_ (free_escaped hl s)
      split
      · have hback : '\x7b' ∉ ['\\'] := by decide
        exact .append (b := [c]) (free_of_not_mem hback) (free_singleton hrest)
      · exact free_singleton hrest

section fill
variable (d : Delimiters) {w : List Char}

/-- A text of a pattern with the delimiters filled in. -/
def fill (w : List Char) : List Char :=
  Text.replace closePlace (escaped d.closing.toList)
    (Text.replace openPlace (escaped d.opening.toList) w)

theorem fillPlaces_eq (template : String) :
    fillPlaces template (escape d.opening) (escape d.closing) =
      .ofList (fill d template.toList) := by
  rw [fillPlaces, toList_escape, toList_escape]
  rfl

theorem fill_of_not_mem (h : '\x7b' ∉ w) : fill d w = w := by
  have hplain {p new : List Char} : Text.replaceFrom ('\x7b' :: p) new 0 w = w := by
    have hw : Text.replaceFrom ('\x7b' :: p) new 0 (w ++ []) = w ++ [] :=
      Text.replaceFrom_of_free (free_of_not_mem h)
    rwa [List.append_nil] at hw
  show Text.replaceFrom closePlace _ 0 (Text.replaceFrom openPlace _ 0 w) = w
  rw [openPlace, closePlace, hplain, hplain]

/-- The delimiters come to stand around what stands between their places. -/
theorem fill_places (h : '\x7b' ∉ w) (hhead : ∀ c ∈ w.head?, c ∉ closePlace) (hne : w ≠ []) :
    fill d (openPlace ++ w ++ closePlace) =
      escaped d.opening.toList ++ w ++ escaped d.closing.toList := by
  have hplain {p new l : List Char} : Text.replaceFrom ('\x7b' :: p) new 0 (w ++ l) =
      w ++ Text.replaceFrom ('\x7b' :: p) new 0 l :=
    Text.replaceFrom_of_free (free_of_not_mem h)
  have hopen : Text.replaceFrom openPlace (escaped d.opening.toList) 0
      (openPlace ++ (w ++ closePlace)) = escaped d.opening.toList ++ (w ++ closePlace) := by
    have hclose {new : List Char} : Text.replaceFrom openPlace new 0 closePlace = closePlace := rfl
    rw [Text.replaceFrom_append (by decide), openPlace, hplain, ← openPlace, hclose]
  have hfree : Free (· = closePlace) (escaped d.opening.toList) (w ++ closePlace) := by
    refine free_escaped (fun c hc => hhead c ?_) _
    obtain ⟨e, v, rfl⟩ := List.exists_cons_of_ne_nil hne
    exact hc
  have hlast (new : List Char) : Text.replaceFrom closePlace new 0 closePlace = new := by
    have h : Text.replaceFrom closePlace new 0 (closePlace ++ []) = new ++ [] :=
      Text.replaceFrom_append (by decide)
    rwa [List.append_nil, List.append_nil] at h
  have hclose (new : List Char) : Text.replaceFrom closePlace new 0 (w ++ closePlace) = w ++ new :=
    hplain.trans (congrArg (w ++ ·) (hlast new))
  show Text.replaceFrom closePlace _ 0 (Text.replaceFrom openPlace _ 0 _) = _
  rw [List.append_assoc, hopen, Text.replaceFrom_of_free hfree, hclose, List.append_assoc]

end fill

/-! ### Texts of patterns without places -/

/-- A text that denotes patterns does not take a parenthesis behind it for a part of itself. -/
theorem Pattern.Denotes.closed {s : String} {ps : List Pattern} (h : Denotes s.toList ps) :
    Closed s := by
  have htext : (s ++ ")").toList = s.toList ++ [')'] := by
    rw [String.toList_append]
    exact congrArg _ String.toList_ofList
  have hhead : [')'].head? ≠ some '?' := by decide
  have hlen : s.toList.length + [')'].length < (s.toList ++ [')']).length + 1 := by
    rw [List.length_append]
    exact Nat.lt_succ_self _
  obtain ⟨m, hm, hread⟩ := h _ [] {} [] [')'] hlen hhead
  obtain ⟨k, rfl⟩ : ∃ k, m = k + 1 := ⟨m - 1, by omega⟩
  rw [Closed, Pattern.parse?, htext, hread]
  rfl

/-- The text denotes patterns that set no conditions on places. -/
def IsAnchorless (s : List Char) : Prop :=
  ∃ ps, Denotes s ps ∧ ∀ p ∈ ps, p.Anchorless

namespace IsAnchorless

variable {s t : List Char}

theorem append (hs : IsAnchorless s) (ht : IsAnchorless t) (hhead : t.head? ≠ some '?') :
    IsAnchorless (s ++ t) := by
  obtain ⟨ps, hps, hanchorless⟩ := hs
  obtain ⟨qs, hqs, hanchorless'⟩ := ht
  refine ⟨ps ++ qs, hps.append hqs hhead, fun p hp => ?_⟩
  rcases List.mem_append.mp hp with hp | hp
  · exact hanchorless p hp
  · exact hanchorless' p hp

theorem plain (h : s.all (fun c => !isSign c) = true) : IsAnchorless s := by
  refine ⟨letters s, denotes_letters fun c hc => ?_, anchorless_letters s⟩
  have := List.all_eq_true.mp h c hc
  simpa using this

theorem escaped (w : List Char) : IsAnchorless (Pattern.escaped w) :=
  ⟨letters w, denotes_escaped_text w, anchorless_letters w⟩

theorem parse? {s : String} {p : Pattern} (h : IsAnchorless s.toList)
    (hp : Pattern.parse? s = some p) :
    p.Anchorless ∧ ∃ ps, Denotes s.toList ps ∧ p = seqAll ps := by
  obtain ⟨ps, hps, hanchorless⟩ := h
  obtain rfl := hps.parse? hp
  exact ⟨anchorless_seqAll hanchorless, ps, hps, rfl⟩

end IsAnchorless

/-! ### The texts of the known tags -/

namespace BuiltinTag

theorem denotes_nameStart :
    Denotes ['[', 'A', '-', 'Z', 'a', '-', 'z', '_', ']'] [nameStart] := by
  intro n names g outer rest hn _
  have hlen : ['[', 'A', '-', 'Z', 'a', '-', 'z', '_', ']'].length = 9 := rfl
  obtain ⟨m, rfl⟩ : ∃ m, n = m + 9 := ⟨n - 9, by omega⟩
  exact ⟨m + 8, by omega, read_class rfl rfl⟩

theorem denotes_blank : Denotes blankTemplate [blank] := by
  intro n names g outer rest hn _
  have hlen : blankTemplate.length = 5 := rfl
  obtain ⟨m, rfl⟩ : ∃ m, n = m + 5 := ⟨n - 5, by omega⟩
  exact ⟨m + 4, by omega, read_class rfl rfl⟩

theorem denotes_dotted : Denotes ['[', '\\', 'w', '.', ']', '*'] [star true dottedPart] := by
  have h : Denotes ['[', '\\', 'w', '.', ']'] [dottedPart] := by
    intro n names g outer rest hn _
    have hlen : ['[', '\\', 'w', '.', ']'].length = 5 := rfl
    obtain ⟨m, rfl⟩ : ∃ m, n = m + 5 := ⟨n - 5, by omega⟩
    exact ⟨m + 4, by omega, read_class rfl rfl⟩
  exact h.star (by decide +kernel)

theorem denotes_word : Denotes ['\\', 'w', '*'] [star true (char .word)] := by
  have h : Denotes ['\\', 'w'] [char .word] := by
    intro n names g outer rest hn _
    have hlen : ['\\', 'w'].length = 2 := rfl
    obtain ⟨m, rfl⟩ : ∃ m, n = m + 2 := ⟨n - 2, by omega⟩
    exact ⟨m + 1, by omega, read_escape rfl rfl⟩
  exact h.star (by decide +kernel)

theorem denotes_body : Denotes bodyTemplate [star false bodyItem] := by
  intro n names g outer rest hn _
  have hlen : bodyTemplate.length = 51 := by decide
  obtain ⟨m, rfl⟩ : ∃ m, n = m + 24 := ⟨n - 24, by omega⟩
  exact ⟨m, by omega, rfl⟩

theorem denotes_arguments : Denotes argumentsTemplate [star true argumentItem] := by
  have h : Denotes argumentsTemplate.dropLast [argumentItem] := by
    intro n names g outer rest hn _
    have hlen : argumentsTemplate.dropLast.length = 51 := by decide
    obtain ⟨m, rfl⟩ : ∃ m, n = m + 26 := ⟨n - 26, by omega⟩
    exact ⟨m + 3, by omega, rfl⟩
  exact h.star (by decide +kernel)

/-- The text of a body after a blank, both of which can be missing. -/
def optionalBody : List Char :=
  ['(', '?', ':'] ++ blankTemplate ++ bodyTemplate ++ [')', '?']

theorem denotes_optionalBody :
    Denotes optionalBody [alt (seq blank (star false bodyItem)) empty] := by
  intro n names g outer rest hn hrest
  have hlen : optionalBody.length = 61 := by decide
  obtain ⟨m, rfl⟩ : ∃ m, n = m + 28 := ⟨n - 28, by omega⟩
  have hgroup : read (m + 28) {} names g outer (optionalBody ++ rest) =
      read (m + 1) {} names (g.add (seq blank (star false bodyItem))) outer ('?' :: rest) := rfl
  have hrepeat : (g.add (seq blank (star false bodyItem))).repeatLast? true 0 (some 1) =
      some (g.add (alt (seq blank (star false bodyItem)) empty)) := rfl
  refine ⟨m, by omega, ?_⟩
  rw [hgroup]
  simp only [Pattern.read, skipSpace_usual, readGreed_usual hrest, hrepeat]
  rfl

/-- What stands between the delimiters in the text of an opening pattern; all of the text, for the
tags that do not use them. -/
def middle (t : BuiltinTag) : List Char :=
  match t with
  | var =>
    ['\\', '$'] ++ ['[', 'A', '-', 'Z', 'a', '-', 'z', '_', ']'] ++
      ['[', '\\', 'w', '.', ']', '*'] ++ optionalBody
  | loopVar => ['@'] ++ ['[', 'A', '-', 'Z', 'a', '-', 'z', '_', ']'] ++ ['\\', 'w', '*']
  | expr => ['='] ++ bodyTemplate
  | await => '#' :: t.name ++ optionalBody
  | comment => '#' :: t.name
  | binding | conditional | whileLoop | eachLoop | untilLoop =>
    '#' :: t.name ++ blankTemplate ++ bodyTemplate
  | layout | slot | output | inclusion | moduleUse | definition | invocation =>
    '@' :: t.name ++ ['\\', '('] ++ argumentsTemplate ++ ['\\', ')']

def isDelimited (t : BuiltinTag) : Bool :=
  match t with
  | layout | slot | output | inclusion | moduleUse | definition | invocation => false
  | _ => true

theorem template_eq (t : BuiltinTag) :
    t.template = if t.isDelimited then openPlace ++ t.middle ++ closePlace else t.middle := by
  cases t <;> rfl

theorem isAnchorless_middle (t : BuiltinTag) : IsAnchorless t.middle := by
  have hstart : IsAnchorless ['[', 'A', '-', 'Z', 'a', '-', 'z', '_', ']'] :=
    ⟨_, denotes_nameStart, by decide⟩
  have hblank : IsAnchorless blankTemplate := ⟨_, denotes_blank, by decide⟩
  have hbody : IsAnchorless bodyTemplate := ⟨_, denotes_body, by decide⟩
  have harguments : IsAnchorless argumentsTemplate := ⟨_, denotes_arguments, by decide⟩
  have hoptional : IsAnchorless optionalBody := ⟨_, denotes_optionalBody, by decide⟩
  cases t with
  | var =>
      have hdollar : IsAnchorless ['\\', '$'] := .escaped ['$']
      have hdotted : IsAnchorless ['[', '\\', 'w', '.', ']', '*'] := ⟨_, denotes_dotted, by decide⟩
      exact ((hdollar.append hstart (by decide)).append hdotted (by decide)).append hoptional
        (by decide)
  | loopVar =>
      have hat : IsAnchorless ['@'] := .plain (by decide)
      have hword : IsAnchorless ['\\', 'w', '*'] := ⟨_, denotes_word, by decide⟩
      exact (hat.append hstart (by decide)).append hword (by decide)
  | expr =>
      have hequals : IsAnchorless ['='] := .plain (by decide)
      exact hequals.append hbody (by decide)
  | await =>
      have hname : IsAnchorless ('#' :: await.name) := .plain (by decide)
      exact hname.append hoptional (by decide)
  | comment => exact .plain (by decide)
  | binding | conditional | whileLoop | eachLoop | untilLoop =>
      refine .append (.append (.plain ?_) hblank ?_) hbody ?_ <;> decide
  | layout | slot | output | inclusion | moduleUse | definition | invocation =>
      have hopen : IsAnchorless ['\\', '('] := .escaped ['(']
      have hclose : IsAnchorless ['\\', ')'] := .escaped [')']
      refine .append (.append (.append (.plain ?_) hopen ?_) harguments ?_) hclose ?_ <;> decide

/-- The text begins with a character that is no question mark and does not stand in the place of
the closing delimiter. -/
def beginsPlain (w : List Char) : Bool :=
  w.head?.any fun c => c != '?' && !closePlace.contains c

theorem head?_of_beginsPlain {w : List Char} (h : beginsPlain w = true) :
    w ≠ [] ∧ (∀ c ∈ w.head?, c ∉ closePlace) ∧ w.head? ≠ some '?' := by
  cases w with
  | nil => cases h
  | cons c w =>
      have hc : c ≠ '?' ∧ c ∉ closePlace := by simpa [beginsPlain] using h
      refine ⟨List.cons_ne_nil c w, fun e he => ?_, fun he => hc.1 (Option.some.inj he)⟩
      exact Option.some.inj he ▸ hc.2

theorem isAnchorless_places (d : Delimiters) {w : List Char} (h : IsAnchorless w)
    (hbrace : '\x7b' ∉ w) (hbegin : beginsPlain w = true) :
    IsAnchorless (fill d (openPlace ++ w ++ closePlace)) := by
  obtain ⟨hne, hhead, hmark⟩ := head?_of_beginsPlain hbegin
  rw [fill_places d hbrace hhead hne]
  exact ((IsAnchorless.escaped _).append h hmark).append (.escaped _) (head?_escaped_ne _)

theorem isAnchorless_template (d : Delimiters) (t : BuiltinTag) :
    IsAnchorless (fill d t.template) := by
  have hbrace : '\x7b' ∉ t.middle := by
    cases t <;> decide
  rw [template_eq]
  cases hdelimited : t.isDelimited with
  | false =>
      rw [if_neg Bool.false_ne_true, fill_of_not_mem d hbrace]
      exact isAnchorless_middle t
  | true =>
      have hbegin : t.isDelimited = true → beginsPlain t.middle = true := by
        cases t <;> decide
      exact isAnchorless_places d (isAnchorless_middle t) hbrace (hbegin hdelimited)

/-- The text of a closing tag with places for the delimiters. -/
def closingTemplate? (t : BuiltinTag) : Option (List Char) :=
  match t with
  | conditional | whileLoop | eachLoop | untilLoop | await | comment =>
    some (openPlace ++ '/' :: t.name ++ closePlace)
  | slot | definition => some ('@' :: 'e' :: 'n' :: 'd' :: t.name)
  | _ => none

theorem closing_spec (t : BuiltinTag) :
    t.spec.closing = t.closingTemplate?.map String.ofList := by
  cases t <;> rfl

theorem isAnchorless_closing (d : Delimiters) {t : BuiltinTag} {w : List Char}
    (h : t.closingTemplate? = some w) : IsAnchorless (fill d w) := by
  cases t with
  | conditional | whileLoop | eachLoop | untilLoop | await | comment =>
      cases h
      refine isAnchorless_places d (.plain ?_) ?_ ?_ <;> decide
  | slot | definition =>
      cases h
      rw [fill_of_not_mem d (by decide)]
      exact .plain (by decide)
  | var | loopVar | expr | binding | layout | output | inclusion | moduleUse | invocation => cases h

end BuiltinTag

/-! ### The pattern of all tags -/

/-- The source of a fragment is its template with the delimiters filled in. -/
theorem Fragment.source_of_compile {tag template : String} {d : Delimiters} {f : Fragment}
    (h : compile tag template d = .ok f) :
    f.source = fillPlaces template (escape d.opening) (escape d.closing) := by
  unfold compile at h
  dsimp only at h
  split at h
  · cases h
  · split at h
    · cases h
    · split at h
      · cases h
      · cases h
        rfl

namespace TagScanner

open BuiltinTag

variable {d : Delimiters}

theorem anchorless_of_compile {tag : String} {w : List Char} {f : Fragment}
    (hf : Fragment.compile tag (.ofList w) d = .ok f) (hw : IsAnchorless (fill d w)) :
    f.pattern.Anchorless ∧ ∃ ps, Denotes f.source.toList ps ∧ f.pattern = seqAll ps := by
  have hsource : f.source = .ofList (fill d w) := by
    rw [Fragment.source_of_compile hf, fillPlaces_eq, String.toList_ofList]
  have hparse := (Fragment.compile_ok hf).1
  refine IsAnchorless.parse? ?_ hparse
  rw [hsource, String.toList_ofList]
  exact hw

section builtin
variable {s : TagScanner} (h : ofTags .builtin d = .ok s)
include h

theorem map_matchers_of_builtin :
    s.matchers.map (fun m => (m.tag, m.group)) = all.map fun t => (t.spec, .ofList t.name) := by
  have hms := (ofTags_ok h).2.1
  rw [groups_builtin, definitions_builtin, List.zip_map'] at hms
  exact map_matchersOf hms

theorem exists_tag_of_mem {m : TagMatcher} (hm : m ∈ s.matchers) :
    ∃ t : BuiltinTag, m.tag = t.spec ∧ m.group = .ofList t.name := by
  have hmem : (m.tag, m.group) ∈ s.matchers.map fun m => (m.tag, m.group) := List.mem_map_of_mem hm
  rw [map_matchers_of_builtin h] at hmem
  obtain ⟨t, _, ht⟩ := List.mem_map.mp hmem
  exact ⟨t, (congrArg Prod.fst ht).symm, (congrArg Prod.snd ht).symm⟩

theorem anchorless_opener {m : TagMatcher} (hm : m ∈ s.matchers) :
    m.opener.pattern.Anchorless ∧
      ∃ ps, Denotes m.opener.source.toList ps ∧ m.opener.pattern = seqAll ps := by
  obtain ⟨t, htag, _⟩ := exists_tag_of_mem h hm
  obtain ⟨hcompile, _⟩ := compiled_of_mem_matchersOf (ofTags_ok h).2.1 hm
  rw [htag, pattern_spec] at hcompile
  exact anchorless_of_compile hcompile (isAnchorless_template d t)

theorem anchorless_closer {m : TagMatcher} (hm : m ∈ s.matchers) {c : Fragment}
    (hc : m.closer = some c) : c.pattern.Anchorless := by
  obtain ⟨t, htag, _⟩ := exists_tag_of_mem h hm
  obtain ⟨_, hcompile⟩ := compiled_of_mem_matchersOf (ofTags_ok h).2.1 hm
  rw [hc] at hcompile
  obtain ⟨template, htemplate, hcompile⟩ := Fragment.compileClosing_ok hcompile
  rw [htag, closing_spec] at htemplate
  obtain ⟨w, hw, rfl⟩ := Option.map_eq_some_iff.mp htemplate
  exact (anchorless_of_compile hcompile (isAnchorless_closing d hw)).1

theorem anchorless_patterns {m : TagMatcher} (hm : m ∈ s.matchers) {p : Pattern}
    (hp : p ∈ m.patterns) : p.Anchorless := by
  rcases List.mem_cons.mp hp with rfl | hp
  · exact (anchorless_opener h hm).1
  · cases hc : m.closer with
    | none =>
        rw [hc] at hp
        cases hp
    | some c =>
        rw [hc] at hp
        obtain rfl : p = c.pattern := by simpa using hp
        exact anchorless_closer h hm hc

/-- Under any delimiters the pattern of the known tags is what its text looks like. -/
theorem unified_ofTags_builtin : s.Unified :=
  unified_of_closed h fun m hm => by
    obtain ⟨_, hdenotes, _⟩ := (anchorless_opener h hm).2
    exact hdenotes.closed

/-- Under any delimiters the scanner of the known tags goes forward. -/
theorem advances_ofTags_builtin : s.Advances := by
  refine (advances_iff h (unified_ofTags_builtin h)).2 fun m hm p hp => ?_
  exact (anchorless_patterns h hm hp).steady.decided

end builtin

end TagScanner

end TagTemplate
