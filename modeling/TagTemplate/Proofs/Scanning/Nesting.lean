import TagTemplate.Proofs.Scanning.Script

/-! # Closing tags of printed blocks

The search for the closing tag of a block runs over the printed inside of the block as if it were
not there: own blocks in it are counted up and down, raw blocks are stepped over, and no other text
in it looks like an opening or closing tag of the block.

* `RawBlock.plainCloser?_inside`: a raw block ends at its own closing tag.
* `Heading.seek_script`: the search goes over a printed script.
* `Heading.closer?_inside`: a block around a script ends at its own closing tag. -/

namespace TagTemplate

open Pattern BuiltinTag

/-! ### Texts without marks -/

theorem bland_tail_closing {t : BuiltinTag} {z : List Char} (h : t.closing? = some z) :
    ∀ c ∈ z.tail, c ≠ '\x7b' ∧ c ≠ '@' :=
  bland_tail_mark (closing_mem_marks h) (lead_ne_closing h).symm

theorem still_closing {t : BuiltinTag} {z a₁ a₂ l : List Char} (h : t.closing? = some z)
    (hz : z = a₁ ++ a₂) (h₁ : a₁ ≠ []) (h₂ : a₂ ≠ []) : Still (a₂ ++ l) := by
  obtain ⟨c, a, rfl⟩ := List.exists_cons_of_ne_nil h₁
  have htail : z.tail = a ++ a₂ := by
    rw [hz, List.cons_append, List.tail_cons]
  exact still_of_mem (bland_tail_closing h) htail h₂

theorem free_gap (gap : Gap) (l : List Char) : Free (· ∈ marks) gap.1 l :=
  fun _ _ h hne w hw => still_of_mem gap.2 h hne w hw

/-- A text that begins with one mark and has no other inside is free of the others. -/
theorem free_of_still {W : List Char → Prop} {v x l : List Char} (hv : v ∈ marks) (hx : v <+: x)
    (hstill : ∀ a₁ a₂, x = a₁ ++ a₂ → a₁ ≠ [] → a₂ ≠ [] → Still (a₂ ++ l))
    (hW : ∀ w, W w → w ∈ marks) (hnot : ¬ W v) : Free W x l := by
  intro a₁ a₂ h h₂ w hw hprefix
  by_cases h₁ : a₁ = []
  · have hvl : v <+: a₂ ++ l := by
      rw [h₁, List.nil_append] at h
      exact h ▸ hx.trans (List.prefix_append x l)
    exact hnot (mark_unique (hW w hw) hv hprefix hvl ▸ hw)
  · exact hstill a₁ a₂ h h₁ h₂ w (hW w hw) hprefix

theorem free_text {W : List Char → Prop} {t : BuiltinTag} {b : List Char} (h : t.Accepts b)
    (hW : ∀ w, W w → w ∈ marks) (hnot : ¬ W t.lead) (l : List Char) : Free W (t.text b) l :=
  free_of_still (lead_mem_marks t) (lead_prefix_text h) (fun _ _ => still_text h) hW hnot

theorem free_closing {W : List Char → Prop} {t : BuiltinTag} {z : List Char}
    (h : t.closing? = some z) (hW : ∀ w, W w → w ∈ marks) (hnot : ¬ W z) (l : List Char) :
    Free W z l :=
  free_of_still (closing_mem_marks h) List.prefix_rfl (fun _ _ => still_closing h) hW hnot

/-! ### Tags found where they stand -/

section here
variable {text : Array Char} {pos : Nat} {b l z : List Char} {t : BuiltinTag}

theorem matchAt?_opener (h : t.Accepts b) (hl : Remains text pos (t.text b ++ l)) :
    t.opener.matchAt? text pos = some ⟨pos + (t.text b).length, []⟩ :=
  (reads_text h).matchAt? (groupNames_opener t) hl

theorem find?_opener (h : t.Accepts b) (hl : Remains text pos (t.text b ++ l)) :
    t.opener.find? text pos = some ⟨pos, pos + (t.text b).length, []⟩ :=
  find?_of_matchAt? hl.le (matchAt?_opener h hl)

theorem find?_letters (hl : Remains text pos (z ++ l)) :
    (seqAll (letters z)).find? text pos = some ⟨pos, pos + z.length, []⟩ :=
  find?_of_matchAt? hl.le ((reads_letters z).matchAt? (groupNames_seqAll_letters z) hl)

end here

theorem opener_matcher (t : BuiltinTag) : t.matcher.opener.pattern = t.opener :=
  rfl

theorem closer_matcher {t : BuiltinTag} {z : List Char} (h : t.closing? = some z) :
    t.matcher.closer = some (closerFragment z) := by
  rw [matcher, h]
  rfl

/-! ### Raw blocks -/

namespace RawBlock

/-- The tags of a raw block. -/
def IsOwn (b : RawBlock) (w : List Char) : Prop :=
  w = b.heading.tag.lead ∨ w = b.heading.closing

/-- An own tag does not begin inside a raw block, nor does it reach from there into what comes
after it. -/
theorem free_inside (b : RawBlock) (l : List Char) :
    Free b.IsOwn b.inside (b.heading.closing ++ l) := by
  intro a₁ a₂ ha h₂ w hw hprefix
  have hnot : ¬ w <:+: b.inside := by
    rcases hw with rfl | rfl
    · exact b.opens_not
    · exact b.closes_not
  have hbland : ∀ c ∈ w.tail, c ≠ '\x7b' ∧ c ≠ '@' := by
    rcases hw with rfl | rfl
    · refine bland_tail_mark (lead_mem_marks _) fun heq => ?_
      have hraw := b.heading.rawBody_tag
      rw [lead_injective heq] at hraw
      cases hraw
    · exact bland_tail_closing b.heading.closing?_tag
  have hself : ¬ w <+: a₂ := fun h =>
    hnot (h.isInfix.trans ⟨a₁, [], by rw [ha, List.append_nil]⟩)
  rcases List.prefix_or_prefix_of_prefix hprefix (List.prefix_append a₂ _) with h | ⟨m, rfl⟩
  · exact hself h
  · -- the rest of the mark would have to begin like a closing tag
    cases m with
    | nil => exact hself (by simp)
    | cons c m =>
        rw [List.prefix_append_right_inj] at hprefix
        obtain ⟨m', hm⟩ := hprefix
        rw [List.cons_append] at hm
        have hc : c ∈ (a₂ ++ c :: m).tail := by
          rw [List.tail_append_of_ne_nil h₂]
          exact List.mem_append_right _ List.mem_cons_self
        obtain ⟨hbrace, hat⟩ := hbland c hc
        refine still_of_head hbrace hat b.heading.closing
          (closing_mem_marks b.heading.closing?_tag) (?_ : _ <+: c :: (m ++ m'))
        rw [hm]
        exact List.prefix_append _ _

variable {text : Array Char} {pos : Nat} {l : List Char}

theorem plainCloser?_inside (b : RawBlock)
    (hl : Remains text pos (b.inside ++ (b.heading.closing ++ l))) :
    TagScanner.plainCloser? b.heading.tag.matcher text pos =
      some (pos + b.inside.length, pos + b.inside.length + b.heading.closing.length) := by
  have hfree := b.free_inside l
  have hclose : (seqAll (letters b.heading.closing)).find? text pos = some ⟨pos + b.inside.length,
      pos + b.inside.length + b.heading.closing.length, []⟩ := by
    rw [find?_of_free hfree (.inr (stem_letters _)) hl]
    exact find?_letters hl.pass
  have hopen : b.heading.tag.opener.find? text pos =
      b.heading.tag.opener.find? text (pos + b.inside.length) :=
    find?_of_free hfree (.inl (stem_opener _)) hl
  have hnext : (b.heading.tag.opener.find? text pos).filter
      (fun o => o.start < pos + b.inside.length) = none := by
    rw [hopen, Option.filter_eq_none_iff]
    intro o ho
    have := (bounds_of_find? ho).1
    simp only [decide_eq_true_eq]
    omega
  rw [TagScanner.plainCloser?, closer_matcher b.heading.closing?_tag, Option.bind_some,
    TagScanner.balance]
  simp only [closerFragment, matcher, openerFragment, hclose, TagScanner.noSkip, hnext]

theorem closer?_inside (b : RawBlock)
    (hl : Remains text pos (b.inside ++ (b.heading.closing ++ l))) :
    TagScanner.builtin.closer? b.heading.tag.matcher text pos =
      some (pos + b.inside.length, pos + b.inside.length + b.heading.closing.length) :=
  (if_pos b.heading.rawBody_tag).trans (b.plainCloser?_inside hl)

end RawBlock

/-! ### The search for a closing tag -/

namespace TagScanner

/-- The first of two raw blocks is the one that opens first. -/
theorem earliest_eq_some {x : TagMatcher × Pattern.Match} :
    ∀ {l : List (TagMatcher × Pattern.Match)}, x ∈ l →
      (∀ y ∈ l, y ≠ x → x.2.start < y.2.start) → earliest l = some x
  | a :: l, hx, hfirst => by
      rw [earliest]
      rcases List.mem_cons.mp hx with rfl | hl
      · cases he : earliest l with
        | none => rfl
        | some y =>
            have hy := mem_of_earliest he
            dsimp only
            rw [if_neg]
            by_cases hyx : y = x
            · rw [hyx]
              exact Nat.lt_irrefl _
            · exact Nat.lt_asymm (hfirst y (List.mem_cons_of_mem x hy) hyx)
      · have ih := earliest_eq_some hl fun y hy => hfirst y (List.mem_cons_of_mem a hy)
        rw [ih]
        dsimp only
        by_cases hax : a = x
        · rw [hax, if_neg (Nat.lt_irrefl _)]
        · rw [if_pos (hfirst a List.mem_cons_self hax)]

end TagScanner

namespace Heading

variable {h : Heading} {text : Array Char} {pos depth : Nat} {l : List Char}

/-- The search for the closing tag of a block, `depth` blocks of its tag being open inside it. -/
def seek (h : Heading) (text : Array Char) (depth pos : Nat) : Option (Nat × Nat) :=
  TagScanner.balance h.tag.opener (seqAll (letters h.closing))
    (TagScanner.builtin.skipRaw h.tag.spec.name text) text depth pos

theorem closer?_eq_seek (h : Heading) (text : Array Char) (pos : Nat) :
    TagScanner.builtin.closer? h.tag.matcher text pos = h.seek text 0 pos := by
  have hraw : h.tag.matcher.tag.rawBody = false := h.rawBody_tag
  rw [TagScanner.closer?, hraw, closer_matcher h.closing?_tag]
  rfl

/-- The marks that matter to the search. -/
def Watches (h : Heading) (w : List Char) : Prop :=
  w = h.tag.lead ∨ w = h.closing ∨ ∃ r : BuiltinTag, r.spec.rawBody = true ∧ w = r.lead

theorem mem_marks_of_watches {w : List Char} (hw : h.Watches w) : w ∈ marks := by
  rcases hw with rfl | rfl | ⟨r, _, rfl⟩
  · exact lead_mem_marks _
  · exact closing_mem_marks h.closing?_tag
  · exact lead_mem_marks _

theorem seek_eq (h : Heading) (text : Array Char) (depth pos : Nat) : h.seek text depth pos =
    match TagScanner.balanceNext h.tag.opener (seqAll (letters h.closing))
      (TagScanner.builtin.skipRaw h.tag.spec.name text) text depth pos with
    | some (depth', pos') => h.seek text depth' pos'
    | none => ((seqAll (letters h.closing)).find? text pos).map fun close =>
        (close.start, close.stop) := by
  have hclosing := closer_matcher h.closing?_tag
  have hmem : h.tag.matcher ∈ TagScanner.builtin.matchers :=
    TagScanner.mem_matchers_builtin.mpr ⟨h.tag, rfl⟩
  exact TagScanner.balance_eq
    (fun _ _ hx => TagScanner.advances_builtin.opener hmem (by rw [hclosing]; rfl) hx)
    (fun _ _ hx => TagScanner.advances_builtin.closer hmem hclosing hx)
    (TagScanner.skipsAhead_skipRaw
      (fun _ hm hb _ _ _ => TagScanner.advances_builtin.opener hm hb)
      (fun _ hm _ hc _ _ _ => TagScanner.advances_builtin.closer hm hc) _ _) depth pos

theorem seek_of_find?_eq_none (hnone : (seqAll (letters h.closing)).find? text pos = none) :
    h.seek text depth pos = none := by
  rw [seek, TagScanner.balance, hnone]

theorem seek_of_le {pos' : Nat} (hle : pos ≤ pos')
    (hnone : (seqAll (letters h.closing)).find? text pos = none) :
    h.seek text depth pos' = none := by
  refine seek_of_find?_eq_none (find?_eq_none_iff.mpr fun i h₁ h₂ => ?_)
  exact find?_eq_none_iff.mp hnone i (by omega) h₂

theorem seek_of_free {a : List Char} (hfree : Free h.Watches a l)
    (hl : Remains text pos (a ++ l)) :
    h.seek text depth pos = h.seek text depth (pos + a.length) := by
  have hopen := find?_of_free (p := h.tag.opener) hfree (.inl (stem_opener _)) hl
  have hclose := find?_of_free (p := seqAll (letters h.closing)) hfree
    (.inr (.inl (stem_letters _))) hl
  have hskip (limit : Nat) : TagScanner.builtin.skipRaw h.tag.spec.name text pos limit =
      TagScanner.builtin.skipRaw h.tag.spec.name text (pos + a.length) limit := by
    have hraw : TagScanner.builtin.rawOpeners h.tag.spec.name text pos limit =
        TagScanner.builtin.rawOpeners h.tag.spec.name text (pos + a.length) limit := by
      rw [TagScanner.rawOpeners, TagScanner.rawOpeners, TagScanner.builtin, List.filterMap_map,
        List.filterMap_map]
      congr 1
      funext t
      rw [Function.comp_apply, Function.comp_apply]
      by_cases hr : t.matcher.tag.rawBody ∧ t.matcher.tag.name ≠ h.tag.spec.name
      · rw [if_pos hr, if_pos hr, opener_matcher,
          find?_of_free hfree (.inr (.inr ⟨t, hr.1, stem_opener t⟩)) hl]
      · rw [if_neg hr, if_neg hr]
    rw [TagScanner.skipRaw, TagScanner.skipRaw, hraw]
  rw [seek_eq, seek_eq]
  simp only [TagScanner.balanceNext, hopen, hclose, hskip]

theorem skipRaw_of_le (tag : String) (text : Array Char) {limit : Nat} (hle : limit ≤ pos) :
    TagScanner.builtin.skipRaw tag text pos limit = none := by
  have hraw : TagScanner.builtin.rawOpeners tag text pos limit = [] := by
    rw [TagScanner.rawOpeners, List.filterMap_eq_nil_iff]
    intro m _
    split
    · rw [Option.map_eq_none_iff, Option.filter_eq_none_iff]
      intro o ho
      have := (bounds_of_find? ho).1
      simp only [decide_eq_true_eq]
      omega
    · rfl
  rw [TagScanner.skipRaw, hraw]
  rfl

theorem lt_of_find?_closing {w : List Char} {close : Pattern.Match} (hw : w ∈ marks)
    (hne : w ≠ h.closing) (hl : Remains text pos l) (hwl : w <+: l)
    (hclose : (seqAll (letters h.closing)).find? text pos = some close) : pos < close.start := by
  obtain ⟨hle, _, hat, _⟩ := find?_eq_some_iff.mp hclose
  refine Nat.lt_of_le_of_ne hle fun heq => ?_
  have hnone : (seqAll (letters h.closing)).matchAt? text pos = none := by
    refine matchAt?_eq_none_of_stem hl fun hprefix => hne ?_
    rw [stem_letters] at hprefix
    exact mark_unique hw (closing_mem_marks h.closing?_tag) hwl hprefix
  rw [← heq, hnone] at hat
  cases hat

theorem seek_open {g : Heading} (hg : g.tag = h.tag) (hl : Remains text pos (g.print ++ l)) :
    h.seek text depth pos = h.seek text (depth + 1) (pos + g.print.length) := by
  cases hclose : (seqAll (letters h.closing)).find? text pos with
  | none => rw [seek_of_find?_eq_none hclose, seek_of_le (Nat.le_add_right _ _) hclose]
  | some close =>
      have hlt := lt_of_find?_closing (lead_mem_marks _) (lead_ne_closing h.closing?_tag) hl
        ((lead_prefix_text g.accepts_body).trans (List.prefix_append _ l)) hclose
      have hopen : h.tag.opener.find? text pos = some ⟨pos, pos + g.print.length, []⟩ :=
        hg ▸ find?_opener g.accepts_body hl
      have hlimit : min pos close.start = pos := Nat.min_eq_left (Nat.le_of_lt hlt)
      rw [seek_eq]
      simp only [TagScanner.balanceNext, hclose, hopen, Option.elim_some, hlimit,
        skipRaw_of_le _ text (Nat.le_refl pos), Option.filter_some, hlt, decide_true, if_true]

theorem seek_close (hl : Remains text pos (h.closing ++ l)) :
    h.seek text 0 pos = some (pos, pos + h.closing.length) ∧ ∀ depth,
      h.seek text (depth + 1) pos = h.seek text depth (pos + h.closing.length) := by
  have hclose := find?_letters hl
  have hnext : (h.tag.opener.find? text pos).filter (fun o => o.start < pos) = none := by
    rw [Option.filter_eq_none_iff]
    intro o ho
    have := (bounds_of_find? ho).1
    simp only [decide_eq_true_eq]
    omega
  have hlimit : (h.tag.opener.find? text pos).elim pos (fun o => min o.start pos) ≤ pos := by
    cases h.tag.opener.find? text pos with
    | none => exact Nat.le_refl pos
    | some o => exact Nat.min_le_right _ _
  have hskip := skipRaw_of_le h.tag.spec.name text hlimit
  refine ⟨?_, fun depth => ?_⟩ <;> rw [seek_eq] <;>
    simp [TagScanner.balanceNext, hclose, hnext, hskip]

theorem eq_tag_of_watches_lead {t : BuiltinTag} (hw : h.Watches t.lead) :
    t = h.tag ∨ t.spec.rawBody = true := by
  rcases hw with heq | heq | ⟨r, hr, heq⟩
  · exact .inl (lead_injective heq)
  · exact absurd heq (lead_ne_closing h.closing?_tag)
  · exact .inr (lead_injective heq ▸ hr)

theorem eq_tag_of_watches_closing {t : BuiltinTag} {z : List Char} (hz : t.closing? = some z)
    (hw : h.Watches z) : t = h.tag := by
  rcases hw with rfl | rfl | ⟨r, _, rfl⟩
  · exact absurd rfl (lead_ne_closing hz)
  · exact closing_injective hz h.closing?_tag
  · exact absurd rfl (lead_ne_closing hz)

theorem tag_ne_of_rawBody {t : BuiltinTag} (ht : t.spec.rawBody = true) : t ≠ h.tag := by
  rintro rfl
  rw [h.rawBody_tag] at ht
  cases ht

theorem free_leaf (h : Heading) (tag : Leaf) (l : List Char) : Free h.Watches tag.print l := by
  refine free_text tag.accepts_body (fun _ => mem_marks_of_watches) (fun hw => ?_) l
  have hnone := tag.closing?_tag
  have hraw := tag.rawBody_tag
  rcases eq_tag_of_watches_lead hw with heq | heq
  · rw [heq, h.closing?_tag] at hnone
    cases hnone
  · rw [heq] at hraw
    cases hraw

theorem free_heading {g : Heading} (hne : g.tag ≠ h.tag) (l : List Char) :
    Free h.Watches g.print l ∧ Free h.Watches g.closing l := by
  constructor
  · refine free_text g.accepts_body (fun _ => mem_marks_of_watches) (fun hw => ?_) l
    rcases eq_tag_of_watches_lead hw with heq | hraw
    · exact hne heq
    · exact tag_ne_of_rawBody hraw rfl
  · exact free_closing g.closing?_tag (fun _ => mem_marks_of_watches)
      (fun hw => hne (eq_tag_of_watches_closing g.closing?_tag hw)) l

/-- A raw block is stepped over if it begins before the next own tag. -/
theorem skipRaw_raw (b : RawBlock) {limit : Nat} (hlimit : pos < limit)
    (hl : Remains text pos
      (b.heading.print ++ (b.inside ++ (b.heading.closing ++ l)))) :
    TagScanner.builtin.skipRaw h.tag.spec.name text pos limit =
      some (pos + b.heading.print.length + b.inside.length + b.heading.closing.length) := by
  have hopen := find?_opener b.heading.accepts_body hl
  have hname : b.heading.tag.spec.name ≠ h.tag.spec.name := by
    cases b.heading <;> cases h <;> exact of_decide_eq_true rfl
  let x : TagMatcher × Pattern.Match :=
    (b.heading.tag.matcher, ⟨pos, pos + b.heading.print.length, []⟩)
  have hmem : x ∈ TagScanner.builtin.rawOpeners h.tag.spec.name text pos limit := by
    refine List.mem_filterMap.mpr
      ⟨_, TagScanner.mem_matchers_builtin.mpr ⟨b.heading.tag, rfl⟩, ?_⟩
    rw [if_pos ⟨b.heading.rawBody_tag, hname⟩, opener_matcher, hopen, Option.filter_some,
      decide_eq_true hlimit]
    rfl
  have hfirst : ∀ y ∈ TagScanner.builtin.rawOpeners h.tag.spec.name text pos limit, y ≠ x →
      pos < y.2.start := by
    intro y hy hne
    obtain ⟨m, hm, hy⟩ := List.mem_filterMap.mp hy
    obtain ⟨t, rfl⟩ := TagScanner.mem_matchers_builtin.mp hm
    split at hy
    · obtain ⟨o, ho, rfl⟩ := Option.map_eq_some_iff.mp hy
      have hfind : t.opener.find? text pos = some o := (Option.filter_eq_some_iff.mp ho).1
      refine Nat.lt_of_le_of_ne (bounds_of_find? hfind).1 fun heq => hne ?_
      -- an opening tag at the same place is the same tag
      obtain ⟨_, _, hat, _⟩ := find?_eq_some_iff.mp hfind
      have hlead : t.lead <+: b.heading.print ++ (b.inside ++ (b.heading.closing ++ l)) := by
        by_contra hnot
        rw [← heq, matchAt?_eq_none_of_stem hl (by rwa [stem_opener])] at hat
        cases hat
      have htag : t = b.heading.tag := lead_injective (mark_unique (lead_mem_marks _)
        (lead_mem_marks _) hlead
        ((lead_prefix_text b.heading.accepts_body).trans (List.prefix_append _ _)))
      rw [htag] at hfind ⊢
      exact Prod.ext rfl (Option.some.inj (hfind.symm.trans hopen))
    · cases hy
  rw [TagScanner.skipRaw, TagScanner.earliest_eq_some hmem hfirst, Option.bind_some]
  exact congrArg (Option.map (·.2)) (b.plainCloser?_inside hl.pass)

theorem seek_raw (b : RawBlock)
    (hl : Remains text pos
      (b.heading.print ++ (b.inside ++ (b.heading.closing ++ l)))) :
    h.seek text depth pos = h.seek text depth
      (pos + b.heading.print.length + b.inside.length + b.heading.closing.length) := by
  cases hclose : (seqAll (letters h.closing)).find? text pos with
  | none =>
      rw [seek_of_find?_eq_none hclose, seek_of_le (by omega) hclose]
  | some close =>
      have hprefix : b.heading.tag.lead <+:
          b.heading.print ++ (b.inside ++ (b.heading.closing ++ l)) :=
        (lead_prefix_text b.heading.accepts_body).trans (List.prefix_append _ _)
      have hlt := lt_of_find?_closing (lead_mem_marks _) (lead_ne_closing h.closing?_tag) hl
        hprefix hclose
      have hlimit : pos < (h.tag.opener.find? text pos).elim close.start
          fun o => min o.start close.start := by
        cases ho : h.tag.opener.find? text pos with
        | none => exact hlt
        | some o =>
            refine Nat.lt_min.mpr ⟨?_, hlt⟩
            obtain ⟨hle, _, hat, _⟩ := find?_eq_some_iff.mp ho
            refine Nat.lt_of_le_of_ne hle fun heq => ?_
            have hnot : ¬ h.tag.opener.stem <+:
                b.heading.print ++ (b.inside ++ (b.heading.closing ++ l)) := by
              rw [stem_opener]
              exact fun hown => tag_ne_of_rawBody b.heading.rawBody_tag (lead_injective
                (mark_unique (lead_mem_marks _) (lead_mem_marks _) hprefix hown))
            rw [← heq, matchAt?_eq_none_of_stem hl hnot] at hat
            cases hat
      rw [seek_eq]
      simp only [TagScanner.balanceNext, hclose, skipRaw_raw b hlimit hl]

theorem seek_script (f : Script) : ∀ {depth pos : Nat} {l : List Char},
    Remains text pos (f.print ++ l) →
      h.seek text depth pos = h.seek text depth (pos + f.print.length) := by
  have hgap (gap : Gap) (l : List Char) : Free h.Watches gap.1 l :=
    (free_gap gap l).mono fun _ => mem_marks_of_watches
  induction f with
  | last gap => exact fun hl => seek_of_free (hgap gap _) hl
  | leaf gap tag rest ih =>
      intro depth pos l hl
      rw [Script.print, List.append_assoc, List.append_assoc] at hl
      rw [seek_of_free (hgap gap _) hl, seek_of_free (free_leaf h tag _) hl.pass,
        ih hl.pass.pass, Script.print]
      simp only [List.length_append, Nat.add_assoc]
  | raw gap b rest ih =>
      intro depth pos l hl
      rw [Script.print, List.append_assoc, List.append_assoc, List.append_assoc,
        List.append_assoc] at hl
      rw [seek_of_free (hgap gap _) hl, seek_raw b hl.pass, ih hl.pass.pass.pass.pass,
        Script.print]
      simp only [List.length_append, Nat.add_assoc]
  | block gap g inside rest ihi ihr =>
      intro depth pos l hl
      rw [Script.print, List.append_assoc, List.append_assoc, List.append_assoc,
        List.append_assoc] at hl
      have hlength : pos + gap.1.length + g.print.length + inside.print.length +
          g.closing.length + rest.print.length =
            pos + (Script.block gap g inside rest).print.length := by
        simp only [Script.print, List.length_append, Nat.add_assoc]
      rw [seek_of_free (hgap gap _) hl]
      by_cases htag : g.tag = h.tag
      · -- an own block is counted up, and down again at its end
        have hclosing : g.closing = h.closing := by
          rw [closing, closing, htag]
        have hend := hl.pass.pass.pass
        rw [hclosing] at hend
        have hclose : h.seek text (depth + 1) _ = h.seek text depth _ := (seek_close hend).2 depth
        rw [← hclosing] at hclose
        rw [seek_open htag hl.pass, ihi hl.pass.pass, hclose, ihr hl.pass.pass.pass.pass, hlength]
      · rw [seek_of_free (free_heading htag _).1 hl.pass, ihi hl.pass.pass,
          seek_of_free (free_heading htag _).2 hl.pass.pass.pass, ihr hl.pass.pass.pass.pass,
          hlength]

/-- A block around a script ends at its own closing tag. -/
theorem closer?_inside (h : Heading) (f : Script)
    (hl : Remains text pos (f.print ++ (h.closing ++ l))) :
    TagScanner.builtin.closer? h.tag.matcher text pos =
      some (pos + f.print.length, pos + f.print.length + h.closing.length) := by
  rw [closer?_eq_seek, seek_script f hl]
  exact (seek_close hl.pass).1

end Heading

end TagTemplate
