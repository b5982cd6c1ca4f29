import TagTemplate.Proofs.Scanning.Clock
import TagTemplate.Proofs.Scanning.Delimiters
import TagTemplate.Proofs.Scanning.RoundTrip
import TagTemplate.Proofs.Scanning.Unclosed

/-! # Where errors are

The errors of reading a text are blocks that are never closed.  Each of them gives the place of the
tag that opens the block, in the text that has been read.

* `find?_opened`: what a tag has been found by is matched whole by its opening pattern, taken alone.
* `pointsInto_of_mem_errors`: the errors of a text point to opening tags in it.
* `read_open_between`: the only tag of a text is such an error if it opens a block.
* `Document.readFragment_unclosed`: the errors of a fragment, one behind another. -/

namespace TagTemplate

namespace TagScanner

open Pattern BuiltinTag

/-- The error names a block and gives the place of a tag in the text that opens it: what stands
there, taken alone, is matched whole by the opening pattern. -/
def PointsInto (s : TagScanner) (source : List Char) (e : ParseError) : Prop :=
  ∃ m ∈ s.matchers, m.tag.isBlock = true ∧ ∃ before w after, source = before ++ w ++ after ∧
    e = .unclosedBlock m.tag.name (.behind before w) ∧
    m.opener.pattern.find? w.toArray 0 = some ⟨0, w.length, []⟩

section errors
variable {s : TagScanner} {d : Delimiters} (h : ofTags .builtin d = .ok s)
include h

theorem find?_opened {text : Array Char} {cursor : Nat} {m : TagMatch}
    (hfind : s.find? text cursor = some m) :
    m.matcher.opener.pattern.find? (opened text m).toArray 0 =
      some ⟨0, (opened text m).length, []⟩ := by
  have hmem := mem_matchers hfind
  have hgroups : ∀ m ∈ s.matchers, m.opener.pattern.groupNames = [] :=
    fun m hm => (compiled_of_mem h hm List.mem_cons_self).1
  obtain ⟨_, hsize, hopening, _⟩ :=
    (find?_eq_some_iff (unified_ofTags_builtin h) hgroups (nodup_groups h)).mp hfind
  obtain ⟨_, _, u, hu, hstop⟩ := start_of_opening? hopening
  have halone := Pattern.matchAt?_extract (anchorless_opener h hmem).1 (hgroups _ hmem) hsize hu
  have hbounds := bounds_of_find? hfind
  have hlen : (opened text m).length = m.stop - m.start := by
    rw [opened, slice, Array.length_toList, Array.size_extract, Nat.min_eq_left hbounds.2.2]
  rw [hstop] at halone
  rw [hlen, opened, slice, Array.toArray_toList]
  exact Pattern.find?_of_matchAt? (Nat.zero_le _) halone

/-- What opens a tag is matched whole, taken alone, by the opening pattern of the tag. -/
theorem Opens.find?_eq {m : TagMatcher} {w : List Char} (hopens : s.Opens m w) :
    m.opener.pattern.find? w.toArray 0 = some ⟨0, w.length, []⟩ := by
  obtain ⟨text, cursor, start, stop, hfind, rfl⟩ := hopens
  exact find?_opened h hfind

theorem pointsInto_of_mem_errors {source : String} :
    ∀ e ∈ (s.read source).errors, s.PointsInto source.toList e := by
  intro e he
  obtain ⟨m, hm, hblock, before, w, after, hsource, hopens, herror⟩ :=
    (s.reports_read source).of_mem he
  exact ⟨m, hm, hblock, before, w, after, hsource, herror, hopens.find?_eq h⟩

end errors

/-- An error at the beginning of a text names a tag that the text begins with. -/
theorem PointsInto.lead_prefix {source : List Char} {e : ParseError}
    (h : builtin.PointsInto source e) (hstart : e.span.start = 0) :
    ∃ t : BuiltinTag, e = .unclosedBlock t.spec.name e.span ∧ t.lead <+: source := by
  obtain ⟨m, hm, _, before, w, after, rfl, rfl, hfind⟩ := h
  obtain ⟨t, rfl⟩ := mem_matchers_builtin.mp hm
  have hzero : Text.byteLength before = 0 := hstart
  have hbefore : before = [] := by
    cases before with
    | nil => rfl
    | cons ch l =>
        have hpos := ch.utf8Size_pos
        rw [Text.byteLength_cons] at hzero
        omega
  have hat := (Pattern.find?_eq_some_iff.mp hfind).2.2.1
  have hlead : t.lead <+: w := by
    by_contra hnot
    rw [← stem_opener] at hnot
    rw [opener_matcher, matchAt?_eq_none_of_stem (remains_toArray w) hnot] at hat
    cases hat
  rw [hbefore, List.nil_append]
  exact ⟨t, rfl, hlead.trans (List.prefix_append w after)⟩

/-- An opening tag that is the only tag of a text is never closed. -/
theorem read_open_between (front back : Gap) (h : Heading) :
    let text := front.1 ++ (h.print ++ back.1)
    builtin.read (.ofList text) =
      { parts := [.literal (.ofList text) ⟨0, Text.byteLength text⟩]
        errors := [.unclosedBlock h.tag.spec.name (.behind front.1 h.print)] } := by
  intro l
  let text := l.toArray
  have hl : Located 0 text 0 0 (front.1 ++ (h.print ++ (back.1 ++ []))) := by
    rw [List.append_nil]
    exact located_toArray 0 _
  have hback := hl.pass.pass
  have hend := hback.pass
  let start := 0 + front.1.length
  let stop := start + h.print.length
  have hfind : builtin.find? text 0 = some ⟨h.tag.matcher, start, stop⟩ :=
    find?_text front h.accepts_body hl.remains
  have hclose : builtin.closer? h.tag.matcher text stop = none := by
    have hfree : Free h.Watches back.1 [] :=
      (free_gap back []).mono fun _ => Heading.mem_marks_of_watches
    rw [h.closer?_eq_seek, Heading.seek_of_free hfree hback.remains]
    refine Heading.seek_of_find?_eq_none (find?_eq_none_iff.mpr fun i h₁ h₂ => ?_)
    obtain rfl : i = stop + back.1.length := Nat.le_antisymm (hend.remains.size ▸ h₂) h₁
    refine matchAt?_eq_none_of_stem hend.remains ?_
    rw [stem_letters]
    exact still_nil _ (closing_mem_marks h.closing?_tag)
  have hblock : h.tag.spec.isBlock = true := by
    cases h <;> rfl
  have hspan : spanOf 0 text start stop = .behind front.1 h.print := by
    rw [hl.pass.spanOf_eq hback, Nat.zero_add, Span.behind, Text.byteLength_append]
  have hliteral : literalPart 0 text 0 text.size =
      [.literal (.ofList l) ⟨0, Text.byteLength l⟩] := by
    have hpos : 0 < text.size := by
      have := advances_builtin.find hfind
      omega
    have hwhole : slice text 0 text.size = l := slice_all
    have hlength : Text.offsetOf text.toList text.size = Text.byteLength l :=
      Text.offsetOf_length l
    rw [literalPart, if_pos hpos, hwhole, spanOf, hlength, Text.offsetOf_zero, Nat.zero_add,
      Nat.zero_add]
  have hlast : Remains text stop back.1 := by
    have hremains := hback.remains
    rwa [List.append_nil] at hremains
  rw [read, String.toList_ofList, advances_builtin.readFrom_unclosed 0 hfind hblock hclose,
    advances_builtin.readFrom_end 0 (find?_gap back hlast), hliteral, hspan]
  rfl

/-- An opening tag that stands alone is never closed. -/
theorem read_open (h : Heading) : builtin.read (.ofList h.print) =
    { parts := [.literal (.ofList h.print) ⟨0, Text.byteLength h.print⟩]
      errors := [.unclosedBlock h.tag.spec.name ⟨0, Text.byteLength h.print⟩] } := by
  have hread := read_open_between ⟨[], bland_nil⟩ ⟨[], bland_nil⟩ h
  rwa [List.append_nil] at hread

/-! ### Fragments that cannot be read -/

/-- A scanner that goes forward opens a tag by one character at least. -/
theorem Opens.ne_nil {s : TagScanner} (hs : s.Advances) {m : TagMatcher} {w : List Char}
    (h : s.Opens m w) : w ≠ [] := by
  obtain ⟨text, cursor, start, stop, hfind, rfl⟩ := h
  exact Part.slice_ne_nil (hs.find hfind).2.1 (hs.find hfind).2.2

end TagScanner

namespace Document

/-- A text that cannot be read has the errors that are met in it, and its parts become nodes. -/
theorem eq_of_readFragment_error {s : TagScanner} {d d' : Document} {source : String}
    {errors : List ParseError} (h : d.readFragment s source = (d', .error errors)) :
    (s.read source).errors = errors ∧ errors ≠ [] ∧ ∃ nodes, d' = d.append nodes := by
  have hne : (s.read source).errors ≠ [] := by
    intro hnone
    rw [readFragment_of_no_errors d none hnone] at h
    cases h
  rw [readFragment_of_errors d hne] at h
  cases h
  exact ⟨rfl, hne, _, rfl⟩

theorem exists_readFragment_error {s : TagScanner} {source : String} {errors : List ParseError}
    (d : Document) (h : (s.read source).errors = errors) (hne : errors ≠ []) :
    ∃ d', d.readFragment s source = (d', .error errors) := by
  subst h
  exact ⟨_, readFragment_of_errors d hne⟩

/-- A text whose only tag opens a block cannot be read. -/
theorem readFragment_open (d : Document) (front back : Gap) (h : Heading) :
    ∃ d', d.readFragment .builtin (.ofList (front.1 ++ (h.print ++ back.1))) =
      (d', .error [.unclosedBlock h.tag.spec.name (.behind front.1 h.print)]) :=
  exists_readFragment_error d
    (congrArg Reading.errors (TagScanner.read_open_between front back h)) (List.cons_ne_nil _ _)

/-- **The errors of a fragment are ordered, apart and exact.**  With the tags known from the start,
under any delimiters, a text that cannot be read has errors, and each of them names a block and
gives the place of a tag that opens it in the whole text, however deep it stands: the characters
there, taken alone, are matched from end to end by the opening pattern of that tag.  The places
follow each other in the text and do not meet, and the nodes that were there before stay. -/
theorem readFragment_unclosed {delimiters : Delimiters} {s : TagScanner}
    (hs : TagScanner.ofTags .builtin delimiters = .ok s) {d d' : Document} {source : String}
    {errors : List ParseError} (h : d.readFragment s source = (d', .error errors)) :
    errors ≠ [] ∧
    (∀ e ∈ errors, s.PointsInto source.toList e) ∧
    (∀ e ∈ errors, e.span.start < e.span.stop ∧ e.span.stop ≤ source.utf8ByteSize) ∧
    errors.Pairwise (fun e f => e.span.stop ≤ f.span.start) ∧
    d.size ≤ d'.size ∧ ∀ id < d.size, d'.node id = d.node id := by
  obtain ⟨rfl, hne, nodes, rfl⟩ := eq_of_readFragment_error h
  have hreports := s.reports_read source
  refine ⟨hne, TagScanner.pointsInto_of_mem_errors hs, fun e he => ⟨?_, ?_⟩, hreports.apart, ?_,
    fun id hid => node_append_left hid⟩
  · obtain ⟨m, _, _, gap, w, _, _, hopens, rfl⟩ := hreports.of_mem he
    obtain ⟨c, v, rfl⟩ :=
      List.exists_cons_of_ne_nil (hopens.ne_nil (TagScanner.advances_ofTags_builtin hs))
    have hpos := c.utf8Size_pos
    simp only [ParseError.span, Span.behind, Text.byteLength_append, Text.byteLength_cons]
    omega
  · have hstop := (hreports.bounds he).2
    rwa [List.nil_append, Text.byteLength_toList] at hstop
  · rw [size_append]
    exact Nat.le_add_right _ _

/-- The text `é{#await}{#await}x{#comment}{/await}{#await}`: a block that another one of its tag
keeps open, an opening tag inside that one, and one at the end. -/
def openBlocks : List Char :=
  let await := (Heading.await none).print
  'é' :: await ++ await ++ 'x' :: RawHeading.comment.print ++ (Heading.await none).closing ++ await

theorem readFragment_unclosed_openBlocks :
    let errors : List ParseError :=
      [.unclosedBlock "await" ⟨2, 10⟩, .unclosedBlock "comment" ⟨19, 29⟩,
        .unclosedBlock "await" ⟨37, 45⟩]
    TagScanner.ofTags .builtin {} = .ok .builtin ∧
    ∃ d', (∅ : Document).readFragment .builtin (.ofList openBlocks) = (d', .error errors) ∧
      (∀ e ∈ errors, TagScanner.builtin.PointsInto openBlocks e) ∧
      errors.Pairwise fun e f => e.span.stop ≤ f.span.start := by
  intro errors
  have hsize : openBlocks.toArray.size + (openBlocks.toArray.size - 0) < 92 := by decide
  have hwithin := TagScanner.advances_builtin.readWithin_eq 0 0 hsize
  have hrun : (TagScanner.builtin.readWithin 92 0 openBlocks.toArray 0 0).map (·.errors) =
      some errors := by
    decide +kernel
  have herrors : (TagScanner.builtin.read (.ofList openBlocks)).errors = errors := by
    rw [hwithin] at hrun
    rw [TagScanner.read, String.toList_ofList]
    exact Option.some.inj hrun
  obtain ⟨d', hread⟩ := exists_readFragment_error ∅ herrors (List.cons_ne_nil _ _)
  obtain ⟨_, hpoints, _, hapart, _⟩ := readFragment_unclosed TagScanner.ofTags_builtin hread
  rw [String.toList_ofList] at hpoints
  exact ⟨TagScanner.ofTags_builtin, d', hread, hpoints, hapart⟩

end Document

end TagTemplate
