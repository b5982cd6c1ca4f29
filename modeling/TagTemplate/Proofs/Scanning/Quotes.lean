import TagTemplate.Proofs.Scanning.Adjacent
import TagTemplate.Proofs.Scanning.Contexts
import TagTemplate.Proofs.Scanning.Delimiters

/-! # Other texts in the quotes of a tag

A tag reads a text in quotes as a part of itself, whatever stands in the quotes.  But the search for
the closing tag of a block goes through the text as it is, quotes or not, and so does the search for
raw blocks in it.

* `QuotedTag.reads`: the opening pattern of a tag reads a body with texts in quotes.
* `readFragment_requoted`: with another text in the quotes a template is read into the same tree, if
  neither text spells a mark of the blocks around the tag or of a raw block.
* `readFragment_quotedOpener`: an opening tag in the quotes leaves a block around the tag unclosed. -/

namespace TagTemplate

open Pattern BuiltinTag

/-! ### Bodies with texts in quotes -/

namespace BuiltinTag

def last (t : BuiltinTag) : Char :=
  if t.isDelimited then '\x7d' else ')'

/-- The character can stand in the body of a tag outside quotes. -/
def isUnquoted (t : BuiltinTag) (c : Char) : Bool :=
  c != '"' && c != '\'' && c != '\n' &&
    if t.isDelimited then c != '\x7d' else c != '(' && c != ')'

/-- A body in which all quotes belong to texts in quotes. -/
inductive IsQuoting (t : BuiltinTag) : List Char → Prop
  | nil : IsQuoting t []
  | plain {c : Char} {b : List Char} (hc : t.isUnquoted c = true) (hb : IsQuoting t b) :
    IsQuoting t (c :: b)
  | quoted {q : Char} {y b : List Char} (hq : q = '"' ∨ q = '\'') (hy : isEscaped q y = true)
    (hb : IsQuoting t b) : IsQuoting t (q :: y ++ [q] ++ b)

/-- What stands before the body of a tag. -/
def Fronts (t : BuiltinTag) (f : List Char) : Prop :=
  match t with
  | var => ∃ c name s, f = t.lead ++ c :: (name ++ [s]) ∧ (c.isAlpha = true ∨ c = '_') ∧
    (∀ d ∈ name, Text.isWordChar d = true ∨ d = '.') ∧ (s = ' ' ∨ s = '\t')
  | binding | conditional | whileLoop | eachLoop | untilLoop | await =>
    ∃ s, f = t.lead ++ [s] ∧ (s = ' ' ∨ s = '\t')
  | loopVar | comment => False
  | expr | layout | slot | output | inclusion | moduleUse | definition | invocation => f = t.lead

variable {t : BuiltinTag} {b b' f : List Char}

theorem IsQuoting.append (hb : t.IsQuoting b) (hb' : t.IsQuoting b') : t.IsQuoting (b ++ b') := by
  induction hb with
  | nil => exact hb'
  | plain hc _ ih => exact .plain hc ih
  | quoted hq hy _ ih =>
      rw [List.append_assoc]
      exact .quoted hq hy ih

theorem isQuoting_of_all (h : b.all t.isUnquoted = true) : t.IsQuoting b := by
  induction b with
  | nil => exact .nil
  | cons c b ih =>
      rw [List.all_cons, Bool.and_eq_true] at h
      exact .plain h.1 (ih h.2)

theorem IsQuoting.repeats {cs : CharClass} {z : Char} (hz : z ≠ '"' ∧ z ≠ '\'')
    (hcs : ∀ c, t.isUnquoted c = true → cs.contains c = true ∧ c ≠ z) (hb : t.IsQuoting b) :
    Repeats (item cs) z b := by
  induction hb with
  | nil => exact .nil
  | plain hc _ ih =>
      obtain ⟨hmem, hne⟩ := hcs _ hc
      simp only [isUnquoted, Bool.and_eq_true, bne_iff_ne] at hc
      exact .cons (takes_item hc.1.1.1 hc.1.1.2 hmem).prefers hne ih
  | quoted hq hy _ ih =>
      refine .cons (prefers_item hq hy cs) ?_ ih
      rcases hq with rfl | rfl
      · exact hz.1.symm
      · exact hz.2.symm

theorem IsQuoting.repeats_body (ht : t.isDelimited = true) (hb : t.IsQuoting b) :
    Repeats bodyItem '\x7d' b := by
  refine hb.repeats (by decide) fun c hc => ?_
  simp only [isUnquoted, ht, if_true, Bool.and_eq_true, bne_iff_ne] at hc
  simp [CharClass.contains, Ne.symm hc.1.2, hc.2]

theorem IsQuoting.repeats_arguments (ht : t.isDelimited = false) (hb : t.IsQuoting b) :
    Repeats argumentItem ')' b := by
  refine hb.repeats (by decide) fun c hc => ?_
  simp only [isUnquoted, ht, Bool.false_eq_true, if_false, Bool.and_eq_true, bne_iff_ne] at hc
  simp [CharClass.contains, Ne.symm hc.1.2, Ne.symm hc.2.1, Ne.symm hc.2.2, hc.2.2]

theorem reads_reference_body {lead name : List Char} {c s : Char} (hc : c.isAlpha = true ∨ c = '_')
    (hname : ∀ d ∈ name, Text.isWordChar d = true ∨ d = '.') (hs : s = ' ' ∨ s = '\t')
    (hb : Repeats bodyItem '\x7d' b) :
    (seqAll (letters lead ++ [nameStart, star true dottedPart,
      alt (seq blank (star false bodyItem)) empty, char (.single '\x7d')])).Reads
        (lead ++ c :: (name ++ s :: (b ++ ['\x7d']))) := by
  have hstart : nameStart.Takes c := by
    rcases hc with hc | rfl
    · exact takes_nameStart hc
    · exact takes_char (by decide)
  have hdotted : Repeats dottedPart s name := by
    refine .of_takes fun d hd => ?_
    refine ⟨takes_char ?_, ?_⟩
    · rcases hname d hd with h | rfl
      · simp [CharClass.contains, h]
      · decide
    · rintro rfl
      rcases hs with rfl | rfl <;> rcases hname _ hd with h | h <;> revert h <;> decide
  have hstop : dottedPart.Declines s := by
    rcases hs with rfl | rfl <;> exact declines_char (by decide)
  intro text pos l hl
  simp only [List.append_assoc, List.cons_append, List.nil_append] at hl
  have hend : search text (seqAll [alt (seq blank (star false bodyItem)) empty,
      char (.single '\x7d')]) (pos + lead.length + 1 + name.length) some =
        some (pos + lead.length + 1 + name.length + 1 + b.length + 1) := by
    rw [search_seqAll_cons, search_blank_body hs hb hl.pass.tail.pass]
  rw [search_letters hl, search_seqAll_cons, hstart _ _ _ hl.pass.head?, search_seqAll_cons,
    search_greedy hdotted hstop hl.pass.tail hend]
  simp only [List.length_append, List.length_cons, List.length_nil]
  congr 1
  omega

/-- The opening pattern of a tag reads a body in which all quotes belong to texts in quotes. -/
theorem reads_quoting (hf : t.Fronts f) (hb : t.IsQuoting b) :
    t.opener.Reads (f ++ b ++ [t.last]) := by
  cases t with
  | var =>
      obtain ⟨c, name, s, rfl, hc, hname, hs⟩ := hf
      have htext : var.lead ++ c :: (name ++ [s]) ++ b ++ [var.last] =
          var.lead ++ c :: (name ++ s :: (b ++ ['\x7d'])) := by
        simp only [List.append_assoc, List.cons_append, List.nil_append]
        rfl
      rw [htext]
      exact reads_reference_body hc hname hs (hb.repeats_body rfl)
  | loopVar | comment => exact hf.elim
  | expr =>
      obtain rfl := hf
      exact reads_body (hb.repeats_body rfl)
  | binding | conditional | whileLoop | eachLoop | untilLoop =>
      obtain ⟨s, rfl, hs⟩ := hf
      rw [List.append_assoc (lead _)]
      exact reads_hash hs (hb.repeats_body rfl)
  | await =>
      obtain ⟨s, rfl, hs⟩ := hf
      rw [List.append_assoc (lead _)]
      exact reads_optional hs (hb.repeats_body rfl)
  | layout | slot | output | inclusion | moduleUse | definition | invocation =>
      obtain rfl := hf
      exact reads_directive (hb.repeats_arguments rfl)

end BuiltinTag

/-- A tag with a text in quotes on one line: what stands before its body, and its body before and
behind the quotes. -/
structure QuotedTag where
  tag : BuiltinTag
  front : List Char
  before : List Char
  quote : Char
  after : List Char
  fronts : tag.Fronts front
  quoting_before : tag.IsQuoting before
  quote_eq : quote = '"' ∨ quote = '\''
  quoting_after : tag.IsQuoting after

namespace QuotedTag

/-- The text of the tag with `y` between the quotes. -/
def text (c : QuotedTag) (y : List Char) : List Char :=
  c.front ++ (c.before ++ (c.quote :: y ++ [c.quote] ++ c.after)) ++ [c.tag.last]

theorem reads (c : QuotedTag) {y : List Char} (hy : isEscaped c.quote y = true) :
    c.tag.opener.Reads (c.text y) :=
  reads_quoting c.fronts (c.quoting_before.append (.quoted c.quote_eq hy c.quoting_after))

end QuotedTag

/-! ### Templates with other texts in the quotes -/

/-- A template is read into the same tree when another text is put into the quotes of one of its
tags, but for the body of that tag: in either text no tag that opens before reaches into the tag, and
neither text in the quotes spells a mark of a raw block or of a block that opens before the tag. -/
theorem readFragment_requoted {s : TagScanner} (hs : TagScanner.ofTags .builtin {} = .ok s)
    (c : QuotedTag) {y y' P S : List Char} (hy : isEscaped c.quote y = true)
    (hy' : isEscaped c.quote y' = true)
    (hstops : ∀ g : BuiltinTag, g.opener.StopsIn P (c.text y ++ S))
    (hstops' : ∀ g : BuiltinTag, g.opener.StopsIn P (c.text y' ++ S))
    (hneutral : Neutral P (c.text y)) (hneutral' : Neutral P (c.text y'))
    {d d₁ : Document} {root : Nat}
    (h : d.readFragment s (.ofList (P ++ (c.text y ++ S))) = (d₁, .ok root)) :
    ∃ (d₂ : Document) (root' : Nat) (context : TagContext),
      d.readFragment s (.ofList (P ++ (c.text y' ++ S))) = (d₂, .ok root') ∧
      d₁.outline root = .node "" .root "" none none (context.fill c.tag (c.text y)) ∧
      d₂.outline root' = .node "" .root "" none none (context.fill c.tag (c.text y')) := by
  obtain rfl : TagScanner.builtin = s := Except.ok.inj (TagScanner.ofTags_builtin.symm.trans hs)
  have hx : Exchange c.tag P S (c.text y) (c.text y') :=
    ⟨c.reads hy, c.reads hy', hneutral, hneutral', hstops, hstops'⟩
  have herrors : (TagScanner.builtin.read (.ofList (P ++ (c.text y ++ S)))).errors = [] := by
    by_contra hne
    rw [Document.readFragment_of_errors d hne] at h
    cases h
  obtain ⟨herrors', context, hcontext, hcontext'⟩ := TagScanner.read_exchange hx herrors
  obtain ⟨_, _, hread, houtline, _⟩ := d.outline_readFragment herrors
  obtain ⟨d₂, root', hread', houtline', _⟩ := d.outline_readFragment herrors'
  cases h.symm.trans hread
  exact ⟨d₂, root', context, hread', hcontext ▸ houtline, hcontext' ▸ houtline'⟩

/-! ### A template with a remark in it -/

/-- The heading `{#each entries}`. -/
def entriesHeading : Heading :=
  .eachLoop ⟨.plain ⟨['e', 'n', 't', 'r', 'i', 'e', 's'], by decide⟩, []⟩

/-- The heading `{#if ready}`. -/
def readyHeading : Heading :=
  .conditional ⟨.plain ⟨['r', 'e', 'a', 'd', 'y'], by decide⟩, []⟩

/-- The tag `{#let remark=calm}`. -/
def calmLeaf : Leaf :=
  .binding ⟨.pair ⟨['r', 'e', 'm', 'a', 'r', 'k'], by decide⟩ ⟨['c', 'a', 'l', 'm'], by decide⟩, []⟩

/-- The text `{#each entries}- {#if ready}{#let remark=calm}{/if}{/each}`. -/
def remarkScript : Script :=
  .block ⟨[], bland_nil⟩ entriesHeading
    (.block ⟨['-', ' '], by simp⟩ readyHeading
      (.leaf ⟨[], bland_nil⟩ calmLeaf (.last ⟨[], bland_nil⟩)) (.last ⟨[], bland_nil⟩))
    (.last ⟨[], bland_nil⟩)

/-- The tag `{#let remark=""}`, for texts in its quotes. -/
def remarkTag : QuotedTag where
  tag := .binding
  front := ['\x7b', '#', 'l', 'e', 't', ' ']
  before := ['r', 'e', 'm', 'a', 'r', 'k', '=']
  quote := '"'
  after := []
  fronts := ⟨' ', rfl, .inl rfl⟩
  quoting_before := isQuoting_of_all rfl
  quote_eq := .inl rfl
  quoting_after := .nil

/-- The text `{#each entries}- {#if ready}`. -/
def remarkFront : List Char :=
  entriesHeading.print ++ (['-', ' '] ++ readyHeading.print)

/-- The text `{/if}{/each}`. -/
def remarkBack : List Char :=
  readyHeading.closing ++ entriesHeading.closing

/-- The text `calm`. -/
def calmText : List Char :=
  ['c', 'a', 'l', 'm']

/-- The text `{/while} \" @output(`, which spells marks of tags that do not stand around it. -/
def loudText : List Char :=
  ['\x7b', '/', 'w', 'h', 'i', 'l', 'e', '\x7d', ' ', '\\', '"', ' ', '@', 'o', 'u', 't', 'p', 'u',
    't', '(']

theorem standsAlone_remarkFront (g : BuiltinTag) : g.opener.StandsAlone remarkFront :=
  (standsAlone_text entriesHeading.accepts_body).append
    ((standsAlone_gap ⟨['-', ' '], by simp⟩).append (standsAlone_text readyHeading.accepts_body))

/-- The marks of the blocks around the tag and of raw blocks are missing in a text. -/
theorem neutral_of_all {P w : List Char} (h : ∀ g ∈ BuiltinTag.all,
    g.spec.rawBody = true ∨ g.lead <:+: P → ∀ z ∈ g.closing?.toList,
      ¬ g.lead <:+: w.tail ∧ ¬ z <:+: w.tail) : Neutral P w :=
  fun g hg z hz => h g (mem_all g) hg z (by rw [hz]; exact List.mem_singleton_self z)

theorem neutral_remark : Neutral remarkFront calmLeaf.print ∧
    Neutral remarkFront (remarkTag.text calmText) ∧
    Neutral remarkFront (remarkTag.text loudText) := by
  refine ⟨neutral_of_all ?_, neutral_of_all ?_, neutral_of_all ?_⟩ <;> decide +kernel

/-- The template with `calm` in the quotes is read without errors. -/
theorem errors_calmText : (TagScanner.builtin.read
    (.ofList (remarkFront ++ (remarkTag.text calmText ++ remarkBack)))).errors = [] := by
  have hprint : remarkScript.print = remarkFront ++ (calmLeaf.print ++ remarkBack) := by
    decide +kernel
  have hread := TagScanner.read_print remarkScript
  rw [hprint] at hread
  have hx : Exchange .binding remarkFront remarkBack calmLeaf.print (remarkTag.text calmText) :=
    ⟨reads_text calmLeaf.accepts_body, remarkTag.reads (by decide), neutral_remark.1,
      neutral_remark.2.1, fun g => standsAlone_remarkFront g _,
      fun g => standsAlone_remarkFront g _⟩
  exact (TagScanner.read_exchange hx (by rw [hread])).1

theorem readFragment_requoted_loudText :
    ∃ (d₁ d₂ : Document) (root root' : Nat) (context : TagContext),
      (∅ : Document).readFragment TagScanner.builtin
        (.ofList (remarkFront ++ (remarkTag.text calmText ++ remarkBack))) = (d₁, .ok root) ∧
      (∅ : Document).readFragment TagScanner.builtin
        (.ofList (remarkFront ++ (remarkTag.text loudText ++ remarkBack))) = (d₂, .ok root') ∧
      d₁.outline root =
        .node "" .root "" none none (context.fill .binding (remarkTag.text calmText)) ∧
      d₂.outline root' =
        .node "" .root "" none none (context.fill .binding (remarkTag.text loudText)) := by
  obtain ⟨d₁, root, h, _, _⟩ := (∅ : Document).outline_readFragment errors_calmText
  have hcalm : isEscaped remarkTag.quote calmText = true := by decide
  have hloud : isEscaped remarkTag.quote loudText = true := by decide
  obtain ⟨d₂, root', context, h', houtline, houtline'⟩ := readFragment_requoted
    TagScanner.ofTags_builtin remarkTag hcalm hloud (fun g => standsAlone_remarkFront g _)
    (fun g => standsAlone_remarkFront g _) neutral_remark.2.1 neutral_remark.2.2 h
  exact ⟨d₁, d₂, root, root', context, h, h', houtline, houtline'⟩

/-! ### An opening tag in the quotes -/

/-- The heading `{#each guests}`. -/
def guestsHeading : Heading :=
  .eachLoop ⟨.plain ⟨['g', 'u', 'e', 's', 't', 's'], by decide⟩, []⟩

/-- The search for the end of the outer block meets the opening tag in the quotes, and then there is
one closing tag too few. -/
theorem closer?_guestsText {text : Array Char} {pos : Nat}
    (hl : Remains text pos (['-', ' '] ++ (readyHeading.print ++
      (remarkTag.text guestsHeading.print ++ remarkBack)))) :
    TagScanner.builtin.closer? entriesHeading.tag.matcher text pos = none := by
  have hbland {a : List Char} (ha : ∀ c ∈ a, c ≠ '\x7b' ∧ c ≠ '@') (l : List Char) :
      Free entriesHeading.Watches a l :=
    fun _ _ h hne w hw => still_of_mem ha h hne w (Heading.mem_marks_of_watches hw)
  have hopens (l : List Char) : Free entriesHeading.Watches
      (BuiltinTag.binding.lead ++ [' ', 'r', 'e', 'm', 'a', 'r', 'k', '=', '"']) l := by
    refine free_of_still (lead_mem_marks .binding) (List.prefix_append _ _) (fun a₁ a₂ h h₁ h₂ => ?_)
      (fun _ => Heading.mem_marks_of_watches) (fun hw => ?_)
    · obtain ⟨c, a, rfl⟩ := List.exists_cons_of_ne_nil h₁
      exact still_of_mem (bland_of_not_mem (by decide)) (List.cons.inj h).2 h₂
    · rcases Heading.eq_tag_of_watches_lead hw with heq | hraw
      · cases heq
      · cases hraw
  have htext : remarkTag.text guestsHeading.print ++ remarkBack =
      (BuiltinTag.binding.lead ++ [' ', 'r', 'e', 'm', 'a', 'r', 'k', '=', '"']) ++
        (guestsHeading.print ++ (['"', '\x7d'] ++
          (readyHeading.closing ++ (entriesHeading.closing ++ [])))) := by
    decide +kernel
  rw [htext] at hl
  have hother := Heading.free_heading (h := entriesHeading) (g := readyHeading) (by decide)
  have hguests : guestsHeading.tag = entriesHeading.tag := rfl
  have hend := hl.pass.pass.pass.pass.pass.pass.pass
  rw [Heading.closer?_eq_seek, Heading.seek_of_free (hbland (by simp) _) hl,
    Heading.seek_of_free (hother _).1 hl.pass, Heading.seek_of_free (hopens _) hl.pass.pass,
    Heading.seek_open hguests hl.pass.pass.pass,
    Heading.seek_of_free (hbland (by simp) _) hl.pass.pass.pass.pass,
    Heading.seek_of_free (hother _).2 hl.pass.pass.pass.pass.pass,
    (Heading.seek_close hl.pass.pass.pass.pass.pass.pass).2 0]
  refine Heading.seek_of_find?_eq_none (find?_eq_none_iff.mpr fun i h₁ h₂ => ?_)
  have hsize := hend.size
  rw [List.length_nil] at hsize
  obtain rfl : i = _ := Nat.le_antisymm (hsize ▸ h₂) h₁
  exact matchAt?_eq_none_of_stem hend (by decide)

/-- So the template has no reading without errors. -/
theorem not_yields_guestsText {base : Nat} {text : Array Char} {pos : Nat} {parts : List Part}
    (hl : Remains text pos (remarkFront ++ (remarkTag.text guestsHeading.print ++ remarkBack))) :
    ¬ TagScanner.builtin.Yields base text pos parts := by
  have htext : remarkFront ++ (remarkTag.text guestsHeading.print ++ remarkBack) =
      [] ++ (entriesHeading.print ++ (['-', ' '] ++ (readyHeading.print ++
        (remarkTag.text guestsHeading.print ++ remarkBack)))) := by
    simp only [remarkFront, List.append_assoc, List.nil_append]
  rw [htext] at hl
  have hfound := TagScanner.find?_text ⟨[], bland_nil⟩ entriesHeading.accepts_body hl
  have hopen := closer?_guestsText hl.pass.pass
  intro hyields
  cases hyields with
  | done hfind => cases hfind.symm.trans hfound
  | leaf hfind hleaf _ =>
      cases hfind.symm.trans hfound
      cases hleaf
  | raw hfind _ _ hclose _ | block hfind _ _ hclose _ _ =>
      cases hfind.symm.trans hfound
      cases hclose.symm.trans hopen

/-- With `{#each guests}` for `calm` in the quotes the template is not read any more: the block
`{#each entries}` is not closed. -/
theorem readFragment_quotedOpener :
    TagScanner.ofTags .builtin {} = .ok TagScanner.builtin ∧
    isEscaped remarkTag.quote calmText = true ∧
    isEscaped remarkTag.quote guestsHeading.print = true ∧
    (∃ (d : Document) (root : Nat), (∅ : Document).readFragment TagScanner.builtin
      (.ofList (remarkFront ++ (remarkTag.text calmText ++ remarkBack))) = (d, .ok root)) ∧
    ¬ ∃ (d : Document) (root : Nat), (∅ : Document).readFragment TagScanner.builtin
      (.ofList (remarkFront ++ (remarkTag.text guestsHeading.print ++ remarkBack))) =
        (d, .ok root) := by
  refine ⟨TagScanner.ofTags_builtin, by decide, by decide, ?_, ?_⟩
  · obtain ⟨d, root, h, _, _⟩ := (∅ : Document).outline_readFragment errors_calmText
    exact ⟨d, root, h⟩
  · rintro ⟨d, root, h⟩
    have herrors : (TagScanner.builtin.read (.ofList (remarkFront ++
        (remarkTag.text guestsHeading.print ++ remarkBack)))).errors = [] := by
      by_contra hne
      rw [Document.readFragment_of_errors _ hne] at h
      cases h
    rw [TagScanner.read, String.toList_ofList] at herrors
    exact not_yields_guestsText (remains_toArray _)
      (TagScanner.yields_of_errors TagScanner.advances_builtin herrors)

end TagTemplate
