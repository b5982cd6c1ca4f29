import TagTemplate.Proofs.Scanning.Errors
import TagTemplate.Report

/-! # Places in reports

A report counts characters where an error counts bytes.  So the place that it writes is that of the
opening tag exactly if no longer character stands before the tag, and the marks reach over the tag
exactly if the tag has none either.

* `Text.exists_line`: the line of a text that holds a part of it.
* `Text.locate_injective`: different positions have different lines or columns.
* `Report.shows_iff`: when a report shows the opening tag of an error.
* `Report.not_shows_accented`: a letter of two bytes before the tag moves the place. -/

namespace TagTemplate

/-! ### Lines -/

namespace Text

/-- Number of line ends in a text; a carriage return with a line feed is one of them. -/
def lineEnds : List Char → Nat
  | [] => 0
  | '\r' :: '\n' :: s => lineEnds s + 1
  | c :: s => if isLineEnd c then lineEnds s + 1 else lineEnds s

/-- Number of characters behind the last line end of a text. -/
def lastColumn (s : List Char) : Nat :=
  (s.reverse.takeWhile fun c => !isLineEnd c).length

/-- The line and the column behind a text as they are written, counted from one. -/
def placeBehind (s : List Char) : String :=
  ":" ++ toString (lineEnds s + 1) ++ ":" ++ toString (lastColumn s + 1)

theorem lastColumn_append {a b : List Char} (hb : ∀ c ∈ b, isLineEnd c = false)
    (ha : ∀ c ∈ a.getLast?, isLineEnd c = true) : lastColumn (a ++ b) = b.length := by
  have hback : ∀ c ∈ b.reverse, (!isLineEnd c) = true := by
    intro c hc
    rw [hb c (List.mem_reverse.mp hc)]
    rfl
  have hfront : a.reverse.takeWhile (fun c => !isLineEnd c) = [] := by
    cases hr : a.reverse with
    | nil => rfl
    | cons c r =>
        have hc : isLineEnd c = true := by
          refine ha c ?_
          rw [List.getLast?_eq_head?_reverse, hr]
          rfl
        rw [List.takeWhile_cons, hc]
        rfl
  rw [lastColumn, List.reverse_append, List.takeWhile_append_of_pos hback, hfront,
    List.append_nil, List.length_reverse]

/-- Unless a carriage return stands before a line feed, the first character is a line of its own or
belongs to the next one. -/
theorem lines_cons {c : Char} {s v : List Char} (h : ∀ s', c = '\r' → s = '\n' :: s' → False)
    (hv : ∀ x ∈ v.head?, isLineEnd x = false) : lines (c :: (s ++ v)) =
      if isLineEnd c then [c] :: lines (s ++ v) else consLine c (lines (s ++ v)) := by
  rw [lines]
  intro s' hc hs
  cases s with
  | nil =>
      rw [List.nil_append] at hs
      exact absurd (hv '\n' (by rw [hs]; rfl)) (by decide)
  | cons d s => exact h s hc (congrArg (· :: s) (List.cons.inj hs).1)

/-- The first line of a text takes in what stands before the first line end. -/
theorem lines_plain {w : List Char} (hne : w ≠ []) (hw : ∀ c ∈ w, isLineEnd c = false)
    (after : List Char) : ∃ tail rest, lines (w ++ after) = (w ++ tail) :: rest := by
  induction w with
  | nil => exact absurd rfl hne
  | cons c w ih =>
      have hc : isLineEnd c = false := hw c List.mem_cons_self
      have hw' : ∀ x ∈ w, isLineEnd x = false := fun x hx => hw x (List.mem_cons_of_mem c hx)
      have hnot : ∀ s', c = '\r' → w ++ after = '\n' :: s' → False := by
        rintro s' rfl -
        exact absurd hc (by decide)
      have hcons := lines_cons (v := []) hnot nofun
      rw [List.append_nil, hc, if_neg Bool.false_ne_true] at hcons
      rw [List.cons_append, hcons]
      by_cases hnil : w = []
      · subst hnil
        cases hlines : lines after with
        | nil => exact ⟨[], [], by rw [List.nil_append, hlines]; rfl⟩
        | cons l ls => exact ⟨l, ls, by rw [List.nil_append, hlines]; rfl⟩
      · obtain ⟨tail, rest, hlines⟩ := ih hnil hw'
        exact ⟨tail, rest, by rw [hlines]; rfl⟩

theorem exists_lines {w : List Char} (hne : w ≠ []) (hw : ∀ c ∈ w, isLineEnd c = false)
    (before after : List Char) : ∃ front head tail rest,
      lines (before ++ (w ++ after)) = front ++ (head ++ w ++ tail) :: rest ∧
      before = front.flatten ++ head ∧ front.length = lineEnds before ∧
      (∀ c ∈ head, isLineEnd c = false) ∧
      ∀ l ∈ front, ∃ c ∈ l.getLast?, isLineEnd c = true := by
  have hhead : ∀ x ∈ (w ++ after).head?, isLineEnd x = false := by
    obtain ⟨c, v, rfl⟩ := List.exists_cons_of_ne_nil hne
    rintro x ⟨rfl⟩
    exact hw _ List.mem_cons_self
  fun_induction lineEnds before with
  | case1 =>
      obtain ⟨tail, rest, hlines⟩ := lines_plain hne hw after
      exact ⟨[], [], tail, rest, hlines, rfl, rfl, nofun, nofun⟩
  | case2 s ih =>
      obtain ⟨front, head, tail, rest, hlines, rfl, hlength, hplain, hfront⟩ := ih
      refine ⟨['\r', '\n'] :: front, head, tail, rest, ?_, by simp, congrArg (· + 1) hlength,
        hplain, List.forall_mem_cons.mpr ⟨⟨'\n', rfl, by decide⟩, hfront⟩⟩
      rw [List.cons_append, List.cons_append, lines, hlines, List.cons_append]
  | case3 c s hnot hend ih =>
      obtain ⟨front, head, tail, rest, hlines, hs, hlength, hplain, hfront⟩ := ih
      refine ⟨[c] :: front, head, tail, rest, ?_, by simp [hs], congrArg (· + 1) hlength, hplain,
        List.forall_mem_cons.mpr ⟨⟨c, rfl, hend⟩, hfront⟩⟩
      rw [List.cons_append, lines_cons hnot hhead, if_pos hend, hlines, List.cons_append]
  | case4 c s hnot hend ih =>
      obtain ⟨front, head, tail, rest, hlines, hs, hlength, hplain, hfront⟩ := ih
      rw [List.cons_append, lines_cons hnot hhead, if_neg hend, hlines]
      cases front with
      | nil =>
          refine ⟨[], c :: head, tail, rest, rfl, by simp [hs], hlength, ?_, nofun⟩
          exact List.forall_mem_cons.mpr ⟨by simpa using hend, hplain⟩
      | cons l front =>
          refine ⟨(c :: l) :: front, head, tail, rest, rfl, by simp [hs], hlength, hplain, ?_⟩
          obtain ⟨⟨d, hd, hdend⟩, hfront⟩ := List.forall_mem_cons.mp hfront
          refine List.forall_mem_cons.mpr ⟨⟨d, ?_, hdend⟩, hfront⟩
          rw [List.getLast?_cons, Option.mem_def.mp hd]
          rfl

/-- The line that holds a part of a text without line ends: as many lines stand before it as there
are line ends before the part, and it begins behind the last of them. -/
theorem exists_line {w : List Char} (hne : w ≠ []) (hw : ∀ c ∈ w, isLineEnd c = false)
    (before after : List Char) : ∃ front head tail rest,
      lines (before ++ (w ++ after)) = front ++ (head ++ w ++ tail) :: rest ∧
      front.flatten.length + head.length = before.length ∧
      front.length = lineEnds before ∧ head.length = lastColumn before := by
  obtain ⟨front, head, tail, rest, hlines, rfl, hlength, hplain, hfront⟩ :=
    exists_lines hne hw before after
  refine ⟨front, head, tail, rest, hlines, List.length_append.symm, hlength, ?_⟩
  refine (lastColumn_append hplain fun c hc => ?_).symm
  -- the last character before the line is the end of the line before it
  rcases List.eq_nil_or_concat front with rfl | ⟨init, l, rfl⟩
  · cases hc
  · obtain ⟨d, hd, hend⟩ := hfront l (by simp)
    rw [List.concat_eq_append, List.flatten_concat, List.getLast?_append,
      Option.mem_def.mp hd] at hc
    cases hc
    exact hend

theorem locate_append {line : List Char} {rest : List (List Char)} {k : Nat}
    (hk : k < line.length) : ∀ front : List (List Char),
      locate (front ++ line :: rest) (front.flatten.length + k) = (front.length, k)
  | [] => by
      cases rest with
      | nil => rw [List.nil_append, List.flatten_nil, List.length_nil, Nat.zero_add]; rfl
      | cons l ls =>
          rw [List.nil_append, List.flatten_nil, List.length_nil, Nat.zero_add, locate, if_pos hk]
          rfl
  | l :: front => by
      obtain ⟨l', ls, hls⟩ : ∃ l' ls, front ++ line :: rest = l' :: ls :=
        List.exists_cons_of_ne_nil (by simp)
      have ih : locate (front ++ line :: rest) (front.flatten.length + k) = (front.length, k) :=
        locate_append hk front
      rw [hls] at ih
      have hnot : ¬ (l :: front).flatten.length + k < l.length := by
        rw [List.flatten_cons, List.length_append]
        omega
      have hsub : (l :: front).flatten.length + k - l.length = front.flatten.length + k := by
        rw [List.flatten_cons, List.length_append]
        omega
      rw [List.cons_append, hls, locate, if_neg hnot, hsub, ih]
      rfl

theorem length_locate (ls : List (List Char)) (n : Nat) :
    (ls.take (locate ls n).1).flatten.length + (locate ls n).2 = n := by
  fun_induction locate ls n with
  | case1 l l' ls n h => simp
  | case2 l l' ls n h line column hlocate ih =>
      rw [hlocate] at ih
      rw [List.take_succ_cons, List.flatten_cons, List.length_append]
      dsimp only at ih ⊢
      omega
  | case3 ls n h => simp

theorem locate_injective (ls : List (List Char)) : Function.Injective (locate ls) := by
  intro a b h
  rw [← length_locate ls a, h, length_locate ls b]

/-! ### Characters and bytes -/

/-- A text has no more bytes than characters exactly if each character is one byte. -/
theorem byteLength_eq_length_iff {s : List Char} :
    byteLength s = s.length ↔ ∀ c ∈ s, c.utf8Size = 1 := by
  have hle (s : List Char) : s.length ≤ byteLength s := by
    induction s with
    | nil => exact Nat.le_refl 0
    | cons c s ih =>
        have := c.utf8Size_pos
        rw [byteLength_cons, List.length_cons]
        omega
  induction s with
  | nil => exact ⟨fun _ => nofun, fun _ => rfl⟩
  | cons c s ih =>
      have hpos := c.utf8Size_pos
      have hs := hle s
      rw [List.forall_mem_cons, byteLength_cons, List.length_cons]
      constructor
      · intro h
        exact ⟨by omega, ih.mp (by omega)⟩
      · rintro ⟨hc, htail⟩
        rw [hc, ih.mpr htail, Nat.add_comm]

end Text

/-! ### Excerpts -/

namespace Excerpt

/-- The characters of the line that the marks below it reach over. -/
def marked (x : Excerpt) : List Char :=
  (x.text.zipIdx.filter fun p => x.isMarked p.2).map (·.1)

theorem marked_eq {x : Excerpt} {a b c : List Char} (htext : x.text = a ++ b ++ c)
    (hstart : x.start = a.length) (hstop : x.stop = a.length + b.length) : x.marked = b := by
  have hbefore : (a.zipIdx.filter fun p => x.isMarked p.2) = [] := by
    refine List.filter_eq_nil_iff.mpr fun p hp => ?_
    have := List.snd_lt_add_of_mem_zipIdx hp
    simp only [isMarked, Bool.and_eq_true, decide_eq_true_eq]
    omega
  have hmarked : ((b.zipIdx a.length).filter fun p => x.isMarked p.2) = b.zipIdx a.length := by
    refine List.filter_eq_self.mpr fun p hp => ?_
    have := List.snd_lt_add_of_mem_zipIdx hp
    have := List.le_snd_of_mem_zipIdx hp
    simp only [isMarked, Bool.and_eq_true, decide_eq_true_eq]
    omega
  have hbehind : ((c.zipIdx (a.length + b.length)).filter fun p => x.isMarked p.2) = [] := by
    refine List.filter_eq_nil_iff.mpr fun p hp => ?_
    have := List.le_snd_of_mem_zipIdx hp
    simp only [isMarked, Bool.and_eq_true, decide_eq_true_eq]
    omega
  rw [marked, htext, List.zipIdx_append, List.zipIdx_append, List.filter_append,
    List.filter_append, List.length_append, Nat.zero_add, Nat.zero_add, hbefore, hmarked, hbehind,
    List.nil_append, List.append_nil]
  exact List.zipIdx_map_fst a.length b

/-- Marks within the line reach over as many characters as there are marks. -/
theorem length_marked {x : Excerpt} (hle : x.start ≤ x.stop) (hwithin : x.isWithinLine = true) :
    x.marked.length = x.stop - x.start := by
  have hstop : x.stop ≤ x.text.length := by simpa [isWithinLine] using hwithin
  have hhead : (x.text.take x.start).length = x.start := by
    rw [List.length_take]
    omega
  have hlength : ((x.text.drop x.start).take (x.stop - x.start)).length = x.stop - x.start := by
    rw [List.length_take, List.length_drop]
    omega
  have htext : x.text = x.text.take x.start ++ (x.text.drop x.start).take (x.stop - x.start) ++
      (x.text.drop x.start).drop (x.stop - x.start) := by
    rw [List.append_assoc, List.take_append_drop, List.take_append_drop]
  rw [marked_eq htext hhead.symm (by rw [hhead, hlength]; omega), hlength]

theorem place_injective {x : Excerpt} {line column : Nat}
    (h : x.place = ":" ++ toString (line + 1) ++ ":" ++ toString (column + 1)) :
    x.line = line ∧ x.start = column := by
  have hdigits (n : Nat) : ∀ c ∈ (toString n).toList, (c != ':') = true := by
    intro c hc
    have hpart := List.all_eq_true.mp (GroupName.isPart_toString n) c hc
    rw [bne_iff_ne]
    rintro rfl
    exact absurd hpart (by decide)
  have hlist := congrArg String.toList h
  simp only [place, String.toList_append, List.append_assoc] at hlist
  have hrest := List.append_cancel_left hlist
  have htake := congrArg (List.takeWhile (· != ':')) hrest
  have hcolon (s : List Char) : List.takeWhile (· != ':') (":".toList ++ s) = [] := rfl
  rw [List.takeWhile_append_of_pos (hdigits _), List.takeWhile_append_of_pos (hdigits _), hcolon,
    hcolon, List.append_nil, List.append_nil] at htake
  rw [htake] at hrest
  have hcolumn := List.append_cancel_left (List.append_cancel_left hrest)
  have hline := GroupName.toString_injective (String.toList_injective htake)
  have hstart := GroupName.toString_injective (String.toList_injective hcolumn)
  omega

/-- The excerpt writes the place of the text `w` that follows the text `before`, and its marks reach
over the characters of `w`. -/
structure Shows (x : Excerpt) (before w : List Char) : Prop where
  place : x.place = Text.placeBehind before
  within : x.isWithinLine = true
  marked : x.marked = w

end Excerpt

/-! ### Reports of blocks that are never closed -/

namespace Report

/-- The report on a source has an excerpt that shows the text `w` that follows the text `before`. -/
def Shows (r : Report) (source before w : List Char) : Prop :=
  ∃ x, excerpt? source r.span = some x ∧ x.Shows before w

theorem excerpt?_eq_some_iff {source : List Char} {span : Span} {x : Excerpt} :
    excerpt? source span = some x ↔ isInside source.length span = true ∧
      x = ⟨(Text.locate (Text.lines source) span.start).1,
        (Text.lines source)[(Text.locate (Text.lines source) span.start).1]?.getD [],
        (Text.locate (Text.lines source) span.start).2,
        (Text.locate (Text.lines source) span.start).2 + (span.stop - span.start)⟩ := by
  unfold excerpt?
  split
  · next h => simp [h, eq_comm]
  · next h => simp [h]

section opening
variable {before w after : List Char} {x : Excerpt} (hne : w ≠ [])
  (hw : ∀ c ∈ w, Text.isLineEnd c = false)
include hne hw

theorem locate_length : Text.locate (Text.lines (before ++ w ++ after)) before.length =
    (Text.lineEnds before, Text.lastColumn before) := by
  obtain ⟨front, head, tail, rest, hlines, hlength, hfront, hhead⟩ :=
    Text.exists_line hne hw before after
  have hpos := List.length_pos_iff.mpr hne
  have hk : head.length < (head ++ w ++ tail).length := by
    rw [List.length_append, List.length_append]
    omega
  rw [List.append_assoc, hlines, ← hlength, Text.locate_append hk, hfront, hhead]

/-- If the place is right, all characters before the tag are of one byte. -/
theorem single_of_place (hx : excerpt? (before ++ w ++ after) (.behind before w) = some x)
    (hplace : x.place = Text.placeBehind before) :
    ∀ c ∈ before, c.utf8Size = 1 := by
  obtain ⟨hline, hcolumn⟩ := Excerpt.place_injective hplace
  obtain ⟨_, rfl⟩ := excerpt?_eq_some_iff.mp hx
  have hsame : Text.locate (Text.lines (before ++ w ++ after)) (Text.byteLength before) =
      Text.locate (Text.lines (before ++ w ++ after)) before.length := by
    rw [locate_length hne hw]
    exact Prod.ext hline hcolumn
  exact Text.byteLength_eq_length_iff.mp (Text.locate_injective _ hsame)

/-- If all characters up to the end of the tag are of one byte, the report shows the tag. -/
theorem shows_of_single (hbytes : ∀ c ∈ before ++ w, c.utf8Size = 1) :
    ∃ x, excerpt? (before ++ w ++ after) (.behind before w) = some x ∧ x.Shows before w := by
  obtain ⟨front, head, tail, rest, hlines, hlength, hfront, hhead⟩ :=
    Text.exists_line hne hw before after
  have hstart : Text.byteLength before = before.length :=
    Text.byteLength_eq_length_iff.mpr fun c hc => hbytes c (List.mem_append_left w hc)
  have hstop : Text.byteLength (before ++ w) = before.length + w.length := by
    rw [Text.byteLength_eq_length_iff.mpr hbytes, List.length_append]
  have hinside : isInside (before ++ w ++ after).length (.behind before w) = true := by
    simp only [isInside, Span.behind, hstart, hstop, List.length_append, Bool.and_eq_true,
      Bool.or_eq_true, decide_eq_true_eq]
    omega
  refine ⟨_, excerpt?_eq_some_iff.mpr ⟨hinside, rfl⟩, ?_⟩
  have hline : (Text.lines (before ++ w ++ after))[Text.lineEnds before]? =
      some (head ++ w ++ tail) := by
    rw [List.append_assoc, hlines, ← hfront, List.getElem?_append_right (Nat.le_refl _),
      Nat.sub_self, List.getElem?_cons_zero]
  have hsub : before.length + w.length - before.length = w.length := Nat.add_sub_cancel_left _ _
  simp only [Span.behind, hstart, hstop, locate_length hne hw, hline, hsub, Option.getD_some]
  refine ⟨rfl, ?_, Excerpt.marked_eq rfl hhead.symm (by rw [hhead])⟩
  simp only [Excerpt.isWithinLine, List.length_append, hhead, decide_eq_true_eq]
  omega

/-- If the report shows the tag, all characters up to the end of the tag are of one byte. -/
theorem single_of_shows (hx : excerpt? (before ++ w ++ after) (.behind before w) = some x)
    (hshows : x.Shows before w) : ∀ c ∈ before ++ w, c.utf8Size = 1 := by
  have hbefore := single_of_place hne hw hx hshows.place
  obtain ⟨_, rfl⟩ := excerpt?_eq_some_iff.mp hx
  have hlength := Excerpt.length_marked (Nat.le_add_right _ _) hshows.within
  have hmarked := congrArg List.length hshows.marked
  have hsub : Text.byteLength (before ++ w) - Text.byteLength before = Text.byteLength w := by
    rw [Text.byteLength_append, Nat.add_sub_cancel_left]
  have hbytes : Text.byteLength w = w.length := by
    rw [← hmarked, hlength, Nat.add_sub_cancel_left]
    exact hsub.symm
  intro c hc
  rcases List.mem_append.mp hc with hc | hc
  · exact hbefore c hc
  · exact Text.byteLength_eq_length_iff.mp hbytes c hc

end opening

/-- **When a report shows the opening tag.**  Every error of a text that cannot be read gives the
place of the tag `w` that opens a block, behind the text `before`.  If the tag stands on one line,
the report of the error shows the tag, its line, its column and its characters underlined, exactly
if every character up to the end of the tag is of one byte; and the line and the column are not
those of the tag if a character before it is longer. -/
theorem shows_iff {s : TagScanner} {d d' : Document} {source : String} {errors : List ParseError}
    (h : d.readFragment s source = (d', .error errors)) {e : ParseError} (he : e ∈ errors) :
    ∃ m ∈ s.matchers, ∃ before w after, source.toList = before ++ w ++ after ∧ s.Opens m w ∧
      e = .unclosedBlock m.tag.name (.behind before w) ∧
      (w ≠ [] → (∀ c ∈ w, Text.isLineEnd c = false) →
        ((ofError e).Shows source.toList before w ↔ ∀ c ∈ before ++ w, c.utf8Size = 1) ∧
        ∀ x, excerpt? source.toList (ofError e).span = some x → x.place = Text.placeBehind before →
          ∀ c ∈ before, c.utf8Size = 1) := by
  obtain ⟨rfl, _, _⟩ := Document.eq_of_readFragment_error h
  obtain ⟨m, hm, _, before, w, after, hsource, hopens, rfl⟩ := (s.reports_read source).of_mem he
  refine ⟨m, hm, before, w, after, hsource, hopens, rfl, fun hne hw => ?_⟩
  have hspan : (ofError (.unclosedBlock m.tag.name (.behind ([] ++ before) w))).span =
      .behind before w := rfl
  rw [Shows, hspan, hsource]
  refine ⟨⟨?_, shows_of_single hne hw⟩, fun x hx => single_of_place hne hw hx⟩
  rintro ⟨x, hx, hshows⟩
  exact single_of_shows hne hw hx hshows

/-- The opening tag `{#await}`. -/
def openAwait : Heading :=
  .await none

theorem openAwait_print_plain : ∀ c ∈ openAwait.print, Text.isLineEnd c = false := by
  have hall : openAwait.print.all (fun c => !Text.isLineEnd c) = true := by decide +kernel
  exact fun c hc => by simpa using List.all_eq_true.mp hall c hc

/-- A letter and a line end. -/
def firstLine : Gap :=
  ⟨['a', '\n'], by simp⟩

theorem shows_iff_secondLine :
    let source := firstLine.1 ++ (openAwait.print ++ [])
    let e : ParseError := .unclosedBlock "await" ⟨2, 10⟩
    (∃ d', (∅ : Document).readFragment .builtin (.ofList source) = (d', .error [e])) ∧ e ∈ [e] ∧
      (ofError e).Shows source firstLine.1 openAwait.print := by
  intro source e
  obtain ⟨d', hread⟩ := Document.readFragment_open ∅ firstLine ⟨[], bland_nil⟩ openAwait
  refine ⟨⟨d', hread⟩, List.mem_singleton_self e, ?_⟩
  obtain ⟨m, _, before, w, after, hsource, _, he, hshows⟩ :=
    shows_iff hread (List.mem_singleton_self e)
  rw [String.toList_ofList] at hsource hshows
  obtain ⟨hstart, hstop⟩ := Span.mk.inj (ParseError.unclosedBlock.inj he).2
  -- the place of the error in the source tells what stands before it and what it is
  have hbefore : before = firstLine.1 := by
    have hfront := Span.within_behind [] before (w ++ after)
    rw [List.nil_append, ← List.append_assoc, ← hsource, Span.behind, List.nil_append, ← hstart]
      at hfront
    exact hfront.symm.trans (by decide +kernel)
  have hw : w = openAwait.print := by
    have hwithin := Span.within_behind before w after
    rw [← hsource, Span.behind, ← hstart, ← hstop] at hwithin
    exact hwithin.symm.trans (by decide +kernel)
  have hbytes : (firstLine.1 ++ openAwait.print).all (fun c => c.utf8Size = 1) = true := by
    decide +kernel
  rw [hbefore, hw] at hshows
  exact (hshows (List.cons_ne_nil _ _) openAwait_print_plain).1.mpr fun c hc =>
    of_decide_eq_true (List.all_eq_true.mp hbytes c hc)

/-- **A letter of two bytes moves the place.**  The tag of `é{#await} yes` stands in the second
column; its report writes the third column and underlines what begins there. -/
theorem not_shows_accented :
    let front : Gap := ⟨['é'], by simp⟩
    let back : Gap := ⟨[' ', 'y', 'e', 's'], by simp⟩
    let source := front.1 ++ (openAwait.print ++ back.1)
    let e : ParseError := .unclosedBlock "await" ⟨2, 10⟩
    (∃ d', (∅ : Document).readFragment .builtin (.ofList source) = (d', .error [e])) ∧
      Text.placeBehind front.1 = ":1:2" ∧
      (∃ x, excerpt? source (ofError e).span = some x ∧ x.place = ":1:3" ∧
        x.marked = ['#', 'a', 'w', 'a', 'i', 't', '\x7d', ' ']) ∧
      ¬ (ofError e).Shows source front.1 openAwait.print := by
  intro front back source e
  refine ⟨Document.readFragment_open ∅ front back openAwait, by decide +kernel, ?_, ?_⟩
  · have hx : excerpt? source (ofError e).span = some ⟨0, source, 2, 10⟩ := by
      decide +kernel
    exact ⟨_, hx, by decide +kernel, by decide +kernel⟩
  · rintro ⟨x, hx, hshows⟩
    rw [show source = front.1 ++ openAwait.print ++ back.1 by decide +kernel] at hx
    have hne : openAwait.print ≠ [] := List.cons_ne_nil _ _
    have hsingle := single_of_shows hne openAwait_print_plain hx hshows 'é' List.mem_cons_self
    exact absurd hsingle (by decide)

end Report

end TagTemplate
