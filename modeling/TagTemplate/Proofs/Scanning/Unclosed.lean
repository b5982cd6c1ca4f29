import TagTemplate.Proofs.Document.Tiling

/-! # Blocks that are never closed

The errors of reading a text tell of blocks that are opened and never closed.  They come in the
order of the text, also those that are met inside other blocks: `TagScanner.Reports s before es w`
says that the errors `es` give the places of opening tags in the text `w` that follows the text
`before`, one behind another.

* `reports_readFrom`: what is read from a position on reports so, whatever the tags are.
* `Reports.of_mem`: each error gives the place of a tag that opens the block it names.
* `Reports.bounds` and `Reports.apart`: the places lie in the text, in order and apart. -/

namespace TagTemplate

namespace TagScanner

/-- The errors name blocks, and give the places of tags that open them, one behind another in the
text `w` that follows the text `before`. -/
inductive Reports (s : TagScanner) : List Char → List ParseError → List Char → Prop
  | none {before w : List Char} : Reports s before [] w
  | unclosed {before gap w v : List Char} {m : TagMatcher} {es : List ParseError}
      (hm : m ∈ s.matchers) (hblock : m.tag.isBlock = true) (hopens : s.Opens m w)
      (rest : Reports s (before ++ gap ++ w) es v) :
      Reports s before (.unclosedBlock m.tag.name (.behind (before ++ gap) w) :: es)
        (gap ++ w ++ v)

namespace Reports

variable {s : TagScanner} {before w v : List Char} {es fs : List ParseError}

theorem skip (h : s.Reports (before ++ w) es v) : s.Reports before es (w ++ v) := by
  cases h with
  | none => exact .none
  | @unclosed _ gap u v m es hm hblock hopens rest =>
      have hskip : s.Reports before (.unclosedBlock m.tag.name (.behind (before ++ (w ++ gap)) u) ::
          es) (w ++ gap ++ u ++ v) :=
        .unclosed hm hblock hopens (by rwa [← List.append_assoc before])
      rw [← List.append_assoc before] at hskip
      simpa only [List.append_assoc] using hskip

theorem append (h : s.Reports before es w) (h' : s.Reports (before ++ w) fs v) :
    s.Reports before (es ++ fs) (w ++ v) := by
  induction h with
  | none => exact h'.skip
  | unclosed hm hblock hopens _ ih =>
      rw [List.append_assoc]
      refine .unclosed hm hblock hopens (ih ?_)
      simpa only [List.append_assoc] using h'

/-- Each error gives the place of a tag that opens the block it names. -/
theorem of_mem (h : s.Reports before es w) {e : ParseError} (he : e ∈ es) :
    ∃ m ∈ s.matchers, m.tag.isBlock = true ∧ ∃ gap u v, w = gap ++ u ++ v ∧ s.Opens m u ∧
      e = .unclosedBlock m.tag.name (.behind (before ++ gap) u) := by
  induction h with
  | none => cases he
  | @unclosed before gap u v m es hm hblock hopens _ ih =>
      rcases List.mem_cons.mp he with rfl | he
      · exact ⟨m, hm, hblock, gap, u, v, rfl, hopens, rfl⟩
      · obtain ⟨m', hm', hblock', gap', u', v', rfl, hopens', rfl⟩ := ih he
        refine ⟨m', hm', hblock', gap ++ u ++ gap', u', v', ?_, hopens', ?_⟩
        · simp only [List.append_assoc]
        · simp only [List.append_assoc]

theorem bounds (h : s.Reports before es w) {e : ParseError} (he : e ∈ es) :
    Text.byteLength before ≤ e.span.start ∧ e.span.stop ≤ Text.byteLength (before ++ w) := by
  obtain ⟨m, _, _, gap, u, v, rfl, _, rfl⟩ := h.of_mem he
  simp only [ParseError.span, Span.behind, Text.byteLength_append]
  omega

/-- Each error gives a place behind those of the errors before it. -/
theorem apart (h : s.Reports before es w) :
    es.Pairwise fun e f => e.span.stop ≤ f.span.start := by
  induction h with
  | none => exact .nil
  | unclosed _ _ _ rest ih => exact .cons (fun f hf => (rest.bounds hf).1) ih

end Reports

variable {s : TagScanner} {text : Array Char} {before : List Char}

/-- What is reported up to a position, and then what is reported from there on. -/
theorem Reports.pass {es fs : List ParseError} {a b c : Nat}
    (h : s.Reports (before ++ slice text 0 a) es (slice text a b))
    (h' : s.Reports (before ++ slice text 0 b) fs (slice text b c)) (hab : a ≤ b) (hbc : b ≤ c) :
    s.Reports (before ++ slice text 0 a) (es ++ fs) (slice text a c) := by
  rw [← slice_append hab hbc]
  refine h.append ?_
  rwa [List.append_assoc, slice_append (Nat.zero_le a) hab]

/-- The errors that are met from a position on tell of the text from there on. -/
theorem reports_readFrom (s : TagScanner) (base : Nat) (text : Array Char) (start cursor : Nat) :
    ∀ before, base = Text.byteLength before →
      s.Reports (before ++ slice text 0 cursor) (s.readFrom base text start cursor).errors
        (slice text cursor text.size) := by
  fun_induction s.readFrom base text start cursor with
  | case1 | case3 | case5 | case7 => exact fun _ _ => .none
  | case2 base text start cursor m hfind _ _ _ hleaf hstop _ _ ih =>
      exact fun before hbase => Reports.none.pass (ih before hbase) (Nat.le_of_lt hstop.1) hstop.2
  | case4 base text start cursor m hfind _ _ _ hblock close stop hclose hstop _ _ inner _ ihi ihr =>
      intro before hbase
      have hm := bounds_of_find? hfind
      have hc := le_of_closer? hclose
      have hinner : s.Reports (before ++ slice text 0 m.stop) inner.errors
          (slice text m.stop close) := by
        unfold inner
        split
        · exact .none
        · split
          · next hlt =>
            have hinside := ihi hlt _ (Part.offset_eq_byteLength hbase m.stop)
            have hnil : slice (text.extract m.stop close) 0 0 = [] := by simp [slice]
            rwa [slice_extract, hnil, List.append_nil] at hinside
          · exact .none
      have hrest := Reports.none.pass (ihr before hbase) hc.2.1 hstop.2
      have hboth := hinner.pass hrest hc.1 (by omega)
      exact Reports.none.pass hboth (by omega) (by omega)
  | case6 base text start cursor m hfind hblock hclose hstop rest ih =>
      intro before hbase
      have hm := bounds_of_find? hfind
      have hspan : spanOf base text m.start m.stop =
          .behind (before ++ slice text 0 cursor ++ slice text cursor m.start)
            (slice text m.start m.stop) := by
        rw [Part.spanOf_eq_behind hbase hm.2.1, List.append_assoc,
          slice_append (Nat.zero_le _) hm.1]
      have hopens : s.Opens m.matcher (slice text m.start m.stop) :=
        ⟨text, cursor, m.start, m.stop, hfind, rfl⟩
      have hblock : m.tag.isBlock = true := by simpa using hblock
      have hwhole : slice text cursor text.size =
          slice text cursor m.start ++ slice text m.start m.stop ++
            slice text m.stop text.size := by
        rw [slice_append hm.1 hm.2.1, slice_append (by omega) hm.2.2]
      rw [hspan, hwhole]
      refine .unclosed (mem_matchers hfind) hblock hopens ?_
      rw [List.append_assoc, List.append_assoc, slice_append hm.1 hm.2.1,
        slice_append (Nat.zero_le _) (by omega)]
      exact ih before hbase

theorem reports_read (s : TagScanner) (source : String) :
    s.Reports [] (s.read source).errors source.toList := by
  have hreports := reports_readFrom s 0 source.toList.toArray 0 0 [] rfl
  have hnil : slice source.toList.toArray 0 0 = [] := by simp [slice]
  rwa [slice_all, List.nil_append, hnil] at hreports

end TagScanner

end TagTemplate
