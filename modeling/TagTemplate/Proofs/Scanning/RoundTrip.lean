import TagTemplate.Proofs.Scanning.Nesting

/-! # Reading undoes printing

A printed script is read as the tree it was printed from: each tag is found where it was written,
each block ends at its own closing tag, and the inside of a block is a printed script again.

* `readFrom_script`: the parts of a printed script have its outline.
* `readFragment_print`: so have the nodes that reading it puts into a document. -/

namespace TagTemplate

open Pattern BuiltinTag

namespace TagScanner

variable {text : Array Char} {pos : Nat} {t : BuiltinTag} {b l : List Char}

/-! ### The next tag -/

theorem opening?_of_still (hl : Remains text pos l) (hstill : ∀ t : BuiltinTag, ¬ t.lead <+: l) :
    builtin.opening? text pos = none := by
  refine List.findSome?_eq_none_iff.mpr fun m hm => ?_
  obtain ⟨t, rfl⟩ := mem_matchers_builtin.mp hm
  have hnone : t.matcher.opener.pattern.matchAt? text pos = none :=
    matchAt?_eq_none_of_stem hl (by rw [opener_matcher, stem_opener]; exact hstill t)
  rw [hnone]
  rfl

theorem opening?_of_matchAt? {u : Trail} (hl : Remains text pos l)
    (hat : t.opener.matchAt? text pos = some u) :
    builtin.opening? text pos = some ⟨t.matcher, pos, u.pos⟩ := by
  have hlead {t : BuiltinTag} {u : Trail} (hat : t.opener.matchAt? text pos = some u) :
      t.lead <+: l := by
    by_contra hnot
    rw [matchAt?_eq_none_of_stem hl (by rwa [stem_opener])] at hat
    cases hat
  cases hfound : builtin.opening? text pos with
  | none =>
      have := List.findSome?_eq_none_iff.mp hfound t.matcher (mem_matchers_builtin.mpr ⟨t, rfl⟩)
      rw [opener_matcher, hat] at this
      cases this
  | some found =>
      obtain ⟨hstart, hmem, v, hv, hstop⟩ := start_of_opening? hfound
      obtain ⟨t', ht'⟩ := mem_matchers_builtin.mp hmem
      rw [← ht', opener_matcher] at hv
      have htag : t' = t := lead_injective (mark_unique (lead_mem_marks _) (lead_mem_marks _)
        (hlead hv) (hlead hat))
      rw [htag, hat] at hv
      cases hv
      obtain ⟨m, start, stop⟩ := found
      dsimp only at hstart hstop ht'
      rw [hstart, ← hstop, ← ht', htag]

theorem opening?_text (h : t.Accepts b) (hl : Remains text pos (t.text b ++ l)) :
    builtin.opening? text pos = some ⟨t.matcher, pos, pos + (t.text b).length⟩ :=
  opening?_of_matchAt? hl (matchAt?_opener h hl)

theorem opening?_of_free {a : List Char} (hfree : Free (· ∈ marks) a l)
    (hl : Remains text pos (a ++ l)) {i : Nat} (h₁ : pos ≤ i) (h₂ : i < pos + a.length) :
    builtin.opening? text i = none := by
  obtain ⟨l', hl', hnot⟩ := hfree.at_position hl h₁ h₂
  exact opening?_of_still hl' fun t => hnot _ (lead_mem_marks t)

theorem find?_text (gap : Gap) (h : t.Accepts b)
    (hl : Remains text pos (gap.1 ++ (t.text b ++ l))) : builtin.find? text pos =
      some ⟨t.matcher, pos + gap.1.length, pos + gap.1.length + (t.text b).length⟩ := by
  refine (find?_eq_some_iff unified_builtin groupNames_builtin nodup_groups_builtin).mpr
    ⟨Nat.le_add_right _ _, hl.pass.le, opening?_text h hl.pass, fun i h₁ h₂ => ?_⟩
  exact opening?_of_free (free_gap gap _) hl h₁ h₂

theorem find?_gap (gap : Gap) (hl : Remains text pos gap.1) : builtin.find? text pos = none := by
  refine find?_eq_none_of_opening? unified_builtin groupNames_builtin fun i h₁ h₂ => ?_
  have hl' : Remains text pos (gap.1 ++ []) := by rwa [List.append_nil]
  rcases Nat.lt_or_ge i (pos + gap.1.length) with hi | hi
  · exact opening?_of_free (free_gap gap _) hl' h₁ hi
  · have hsize := hl.size
    obtain rfl : i = pos + gap.1.length := by omega
    exact opening?_of_still hl'.pass fun t => still_nil _ (lead_mem_marks t)

/-! ### The parts of a printed script -/

/-- From a position on `l` remains of the text, and that is where the byte `start` is. -/
structure Located (base : Nat) (text : Array Char) (pos start : Nat) (l : List Char) : Prop where
  remains : Remains text pos l
  start_eq : base + Text.offsetOf text.toList pos = start

theorem located_toArray (base : Nat) (l : List Char) : Located base l.toArray 0 base l :=
  ⟨remains_toArray l, by rw [Text.offsetOf_zero, Nat.add_zero]⟩

namespace Located

variable {base start stop pos' : Nat} {a l' : List Char}

theorem pass (h : Located base text pos start (a ++ l)) :
    Located base text (pos + a.length) (start + Text.byteLength a) l := by
  refine ⟨h.remains.pass, ?_⟩
  rw [← h.start_eq, Text.offsetOf, List.take_add, h.remains.drop, List.take_left,
    Text.byteLength_append, ← Nat.add_assoc]
  rfl

theorem spanOf_eq (h : Located base text pos start l) (h' : Located base text pos' stop l') :
    spanOf base text pos pos' = ⟨start, stop⟩ := by
  rw [spanOf, h.start_eq, h'.start_eq]

theorem literalPart_eq {gap : Gap} (h : Located base text pos start (gap.1 ++ l)) :
    literalPart base text pos (pos + gap.1.length) = Script.gapParts start gap := by
  rw [literalPart, Script.gapParts, h.spanOf_eq h.pass, slice, h.remains.slice]
  by_cases hgap : gap.1 = []
  · rw [if_pos hgap, if_neg (by simp [hgap])]
  · rw [if_neg hgap, if_pos (by have := List.length_pos_iff.mpr hgap; omega)]

end Located

/-- The body and the text of a tag found are those it was printed with. -/
theorem foundBody_text (h : t.Accepts b) (hl : Remains text pos (t.text b ++ l)) :
    builtin.foundBody text ⟨t.matcher, pos, pos + (t.text b).length⟩ = .ofList b ∧
      opened text ⟨t.matcher, pos, pos + (t.text b).length⟩ = t.text b := by
  have hopened : opened text ⟨t.matcher, pos, pos + (t.text b).length⟩ = t.text b := hl.slice
  refine ⟨?_, hopened⟩
  rw [foundBody, hopened]
  exact congrArg _ (body_text h)

theorem readFrom_script (f : Script) : ∀ (base : Nat) (text : Array Char) (pos start : Nat),
    Located base text pos start f.print →
      builtin.readFrom base text pos pos = { parts := f.parts start } := by
  induction f with
  | last gap =>
      intro base text pos start h
      have h' : Located base text pos start (gap.1 ++ []) := by rwa [List.append_nil]
      rw [advances_builtin.readFrom_end base (find?_gap gap h.remains), h.remains.size]
      exact congrArg (fun parts => Reading.mk parts []) h'.literalPart_eq
  | leaf gap tag rest ih =>
      intro base text pos start h
      rw [Script.print] at h
      obtain ⟨hbody, hopened⟩ := foundBody_text tag.accepts_body h.pass.remains
      have hleaf : tag.tag.spec.isBlock = false := by
        cases tag <;> rfl
      have hspan := h.pass.spanOf_eq h.pass.pass
      have hrest := ih base text _ _ h.pass.pass
      rw [Leaf.print] at hspan hrest
      rw [advances_builtin.readFrom_leaf base (find?_text gap tag.accepts_body h.remains) hleaf,
        hbody, hopened, h.literalPart_eq, hspan, hrest]
      rfl
  | raw gap b rest ih =>
      intro base text pos start h
      rw [Script.print] at h
      obtain ⟨hbody, _⟩ := foundBody_text b.heading.accepts_body h.pass.remains
      have hblock : b.heading.tag.spec.isBlock = true := by
        cases b.heading <;> rfl
      have hspan := h.pass.spanOf_eq h.pass.pass.pass.pass
      have hrest := ih base text _ _ h.pass.pass.pass.pass
      have hinside := h.pass.pass.remains.slice
      rw [RawHeading.print] at hspan hrest hinside
      rw [advances_builtin.readFrom_raw base (find?_text gap b.heading.accepts_body h.remains) hblock
        b.heading.rawBody_tag (b.closer?_inside h.pass.pass.remains), hbody, h.literalPart_eq, hspan,
        hrest, slice, hinside]
      rfl
  | block gap heading inside rest ihi ihr =>
      intro base text pos start h
      rw [Script.print] at h
      obtain ⟨hbody, _⟩ := foundBody_text heading.accepts_body h.pass.remains
      have hblock : heading.tag.spec.isBlock = true := by
        cases heading <;> rfl
      -- the inside of the block is the text of a script of its own
      have hinner := ihi _ _ _ _ (located_toArray (base + Text.offsetOf text.toList
        (pos + gap.1.length + heading.print.length)) inside.print)
      have hstart := h.pass.pass.start_eq
      rw [← h.pass.pass.remains.extract] at hinner
      have hspan := h.pass.spanOf_eq h.pass.pass.pass.pass
      have hrest := ihr base text _ _ h.pass.pass.pass.pass
      have hinside := h.pass.pass.remains.slice
      rw [Heading.print] at hspan hrest hinside hinner hstart
      rw [advances_builtin.readFrom_block base (find?_text gap heading.accepts_body h.remains)
        hblock heading.rawBody_tag (heading.closer?_inside inside h.pass.pass.remains), hbody,
        h.literalPart_eq, hspan, hrest, slice, hinside]
      dsimp only
      rw [hinner, hstart]
      rfl

theorem read_print (f : Script) : builtin.read (.ofList f.print) = { parts := f.parts 0 } := by
  rw [read, String.toList_ofList]
  exact readFrom_script f 0 _ 0 0 (located_toArray 0 f.print)

/-- A tag without an inside is read where it was written, between two gaps. -/
theorem read_between (before after : Gap) (h : t.Accepts b) (hleaf : t.spec.isBlock = false) :
    builtin.read (.ofList (before.1 ++ (t.text b ++ after.1))) =
      let start := Text.byteLength before.1
      let stop := start + Text.byteLength (t.text b)
      { parts := Script.gapParts 0 before ++
          .leaf t.spec (.ofList b) (.ofList (t.text b)) ⟨start, stop⟩ ::
            Script.gapParts stop after } := by
  have hl := located_toArray 0 (before.1 ++ (t.text b ++ after.1))
  obtain ⟨hbody, hopened⟩ := foundBody_text h hl.pass.remains
  have hspan := hl.pass.spanOf_eq hl.pass.pass
  have hrest := readFrom_script (.last after) 0 _ _ _ hl.pass.pass
  rw [read, String.toList_ofList, advances_builtin.readFrom_leaf 0 (find?_text before h hl.remains)
    hleaf, hbody, hopened, hl.literalPart_eq, hspan, hrest, Nat.zero_add]
  rfl

end TagScanner

/-- With the tags known from the start and the usual delimiters, a printed script is read without
errors, into nodes that have its outline: the same tags in the same order and nesting, with their
kinds, bodies and texts.  The nodes that were there before stay. -/
theorem readFragment_print : ∃ s, TagScanner.ofTags .builtin {} = .ok s ∧
    ∀ (d : Document) (f : Script), ∃ d' id,
      d.readFragment s (.ofList f.print) = (d', .ok id) ∧
      d'.outline id = .node "" .root "" none none f.outline ∧
      ∀ i < d.size, d'.get? i = d.get? i := by
  refine ⟨TagScanner.builtin, TagScanner.ofTags_builtin, fun d f => ?_⟩
  have hread := TagScanner.read_print f
  obtain ⟨d', id, hfragment, houtline, hkeeps⟩ :=
    d.outline_readFragment (congrArg Reading.errors hread)
  rw [hread] at houtline
  exact ⟨d', id, hfragment, (f.outlineAll_parts 0) ▸ houtline, hkeeps⟩

end TagTemplate
