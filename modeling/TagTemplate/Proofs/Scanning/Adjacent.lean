import TagTemplate.Proofs.Body.Quoting
import TagTemplate.Proofs.Scanning.RoundTrip

/-! # Tags one after another

Where the opening pattern of a known tag reads a text, the tag is found there, whatever its body
is.  Bodies may hold texts in quotes, in which every character is allowed.

* `repeats_quoted`: the repetitions in the patterns of tags go over a text in quotes at once.
* `Located.readFrom_leaf`, `Located.readFrom_raw` and `Located.readFrom_block`: the part of a tag
  that stands at a place, and what is read after it.
* `read_expressionText`: between the delimiters of an expression any text may stand that has no line
  break and no closing brace. -/

namespace TagTemplate

open Pattern BuiltinTag

/-! ### Texts in quotes -/

section quoted
variable {q c : Char} {s : List Char}

/-- One step between two quotes. -/
def Pattern.quotedStep (quote : Char) : Pattern :=
  alt (char (.complement (.union (.single quote) (.union (.single '\\') (.single '\n')))))
    (seq (char (.single '\\')) (char (.complement (.single '\n'))))

theorem takes_quotedStep (hq : c ≠ q) (hback : c ≠ '\\') (hline : c ≠ '\n') :
    (quotedStep q).Takes c := by
  intro text pos k hc
  have hplain : (char (.complement (.union (.single q)
      (.union (.single '\\') (.single '\n'))))).Takes c :=
    takes_char (by simp [CharClass.contains, Ne.symm hq, Ne.symm hback, Ne.symm hline])
  have hescape : (seq (char (.single '\\')) (char (.complement (.single '\n')))).Declines c :=
    (declines_char (by simpa [CharClass.contains] using Ne.symm hback)).seq _
  rw [quotedStep, search, hplain text pos k hc, hescape text pos k hc, Option.or_none]

theorem declines_quotedStep (hq : q ≠ '\\') : (quotedStep q).Declines q :=
  (declines_char (by simp [CharClass.contains])).alt
    ((declines_char (by simpa [CharClass.contains] using Ne.symm hq)).seq _)

theorem prefers_escaped (hline : c ≠ '\n') :
    (quotedStep q).Prefers ['\\', c] := by
  intro text pos l k hl _
  have hplain : (char (.complement (.union (.single q)
      (.union (.single '\\') (.single '\n'))))).Declines '\\' :=
    declines_char (by simp [CharClass.contains])
  have hchar : (char (.complement (.single '\n'))).Takes c :=
    takes_char (by simpa [CharClass.contains] using Ne.symm hline)
  rw [quotedStep, search, hplain text pos k hl.head?, Option.none_or, search, search_single,
    if_pos hl.head?, hchar text (pos + 1) k hl.tail.head?]
  rfl

/-- The text can stand between two quotes: there is no such quote, no lone backslash at its end and
no line break in it, but for quotes and backslashes behind a backslash. -/
def isEscaped (q : Char) : List Char → Bool
  | [] => true
  | '\\' :: c :: s => c != '\n' && isEscaped q s
  | c :: s => c != q && c != '\\' && c != '\n' && isEscaped q s

theorem isEscaped_escape (hs : '\n' ∉ s) : isEscaped q (Text.escape q s) = true := by
  induction s with
  | nil => rfl
  | cons c s ih =>
      obtain ⟨hline, hrest⟩ := not_or.mp (List.mem_cons.not.mp hs)
      rw [Text.escape]
      split
      · simp [isEscaped, Ne.symm hline, ih hrest]
      · next h =>
        obtain ⟨hback, hquote⟩ := not_or.mp h
        simp [isEscaped, hback, hquote, Ne.symm hline, ih hrest]

theorem repeats_escape (hq : q ≠ '\\') (hs : isEscaped q s = true) :
    Repeats (quotedStep q) q s := by
  fun_induction isEscaped q s with
  | case1 => exact .nil
  | case2 c s ih =>
      rw [Bool.and_eq_true, bne_iff_ne] at hs
      exact .cons (prefers_escaped hs.1) (Ne.symm hq) (ih hs.2)
  | case3 c s _ ih =>
      simp only [Bool.and_eq_true, bne_iff_ne] at hs
      obtain ⟨⟨⟨hquote, hback⟩, hline⟩, hrest⟩ := hs
      exact .cons (takes_quotedStep hquote hback hline).prefers hquote (ih hrest)

theorem prefers_quotedRun (hq : q ≠ '\\') (hs : isEscaped q s = true) :
    (quotedRun q).Prefers (q :: s ++ [q]) := by
  intro text pos l k hl hend
  rw [List.append_assoc, List.singleton_append, List.cons_append] at hl
  have hlen : pos + (q :: s ++ [q]).length = pos + 1 + s.length + 1 := by
    simp only [List.length_append, List.length_cons, List.length_nil]
    omega
  have hlast : search text (char (.single q)) (pos + 1 + s.length) k =
      k (pos + (q :: s ++ [q]).length) := by
    rw [search_single, if_pos hl.tail.pass.head?, hlen]
  have hinside := (repeats_escape hq hs).searchStar_greedy (declines_quotedStep hq)
    (k := fun m => search text (char (.single q)) m k) hl.tail (by rwa [hlast])
  rw [quotedRun, search_seqAll_cons, search_single, if_pos hl.head?, search_seqAll_cons]
  exact hinside.trans hlast

theorem prefers_item (hq : q = '"' ∨ q = '\'') (hs : isEscaped q s = true) (cs : CharClass) :
    (item cs).Prefers (q :: s ++ [q]) := by
  intro text pos l k hl hend
  obtain ⟨n, hn⟩ := Option.ne_none_iff_exists'.mp hend
  rcases hq with rfl | rfl
  · rw [item, search, prefers_quotedRun (by decide) hs text pos l k hl hend, hn]
    rfl
  · have hother : (quotedRun '"').Declines '\'' := declines_quotedRun (by decide)
    have hhead : text[pos]? = some '\'' := hl.head?
    rw [item, search, hother text pos k hhead, Option.none_or, search,
      prefers_quotedRun (by decide) hs text pos l k hl hend, hn]
    rfl

/-- The repetitions in the patterns of tags go over a text in quotes at once. -/
theorem repeats_quoted (hq : q = '"' ∨ q = '\'') (hs : '\n' ∉ s) {cs : CharClass} {z : Char}
    (hz : q ≠ z) : Repeats (item cs) z (Text.quoted q s) := by
  have h : Repeats (item cs) z (Text.quoted q s ++ []) :=
    .cons (prefers_item hq (isEscaped_escape hs) cs) hz .nil
  rwa [List.append_nil] at h

end quoted

/-! ### Tags found at a place -/

namespace TagScanner

variable {text : Array Char} {base pos start : Nat} {t : BuiltinTag} {a l : List Char}

/-- The opening pattern matches at a place, and takes the text `a` there. -/
def OpensAt (t : BuiltinTag) (a : List Char) (text : Array Char) (pos : Nat) : Prop :=
  t.opener.matchAt? text pos = some ⟨pos + a.length, []⟩

theorem opensAt_of_reads (h : t.opener.Reads a) (hl : Remains text pos (a ++ l)) :
    OpensAt t a text pos :=
  h.matchAt? (groupNames_opener t) hl

theorem find?_of_opensAt (h : OpensAt t a text pos) (hl : Remains text pos (a ++ l)) :
    builtin.find? text pos = some ⟨t.matcher, pos, pos + a.length⟩ := by
  refine (find?_eq_some_iff unified_builtin groupNames_builtin nodup_groups_builtin).mpr
    ⟨Nat.le_refl _, hl.le, opening?_of_matchAt? hl h, fun i h₁ h₂ => ?_⟩
  exact absurd h₁ (Nat.not_le_of_lt h₂)

def leafPart (t : BuiltinTag) (a : List Char) (start : Nat) : Part :=
  .leaf t.spec (.ofList (t.spec.body {} a)) (.ofList a) ⟨start, start + Text.byteLength a⟩

def rawPart (b : RawBlock) (start : Nat) : Part :=
  .raw b.heading.tag.spec (.ofList b.heading.body) (.ofList b.inside)
    ⟨start, start + Text.byteLength b.heading.print + Text.byteLength b.inside +
      Text.byteLength b.heading.closing⟩

namespace Located

/-- A tag that holds nothing is read where it stands, and then what comes after it. -/
theorem readFrom_leaf (hl : Located base text pos start (a ++ l)) (h : OpensAt t a text pos)
    (hleaf : t.spec.isBlock = false) :
    builtin.readFrom base text pos pos =
      let rest := builtin.readFrom base text (pos + a.length) (pos + a.length)
      { parts := leafPart t a start :: rest.parts, errors := rest.errors } := by
  have hfind := find?_of_opensAt h hl.remains
  have hopened : opened text ⟨t.matcher, pos, pos + a.length⟩ = a := hl.remains.slice
  have hbody : builtin.foundBody text ⟨t.matcher, pos, pos + a.length⟩ =
      .ofList (t.spec.body {} a) := by
    rw [foundBody, hopened]
    rfl
  have hbefore : literalPart base text pos pos = [] := if_neg (Nat.lt_irrefl pos)
  have hspan := hl.spanOf_eq hl.pass
  rw [advances_builtin.readFrom_leaf base hfind hleaf, hbody, hopened, hbefore, hspan]
  rfl

/-- A raw block is read where it stands, and then what comes after it. -/
theorem readFrom_raw (b : RawBlock) (hl : Located base text pos start
    (b.heading.print ++ (b.inside ++ (b.heading.closing ++ l)))) :
    builtin.readFrom base text pos pos =
      let stop := pos + b.heading.print.length + b.inside.length + b.heading.closing.length
      let rest := builtin.readFrom base text stop stop
      { parts := rawPart b start :: rest.parts, errors := rest.errors } := by
  have hfind : builtin.find? text pos =
      some ⟨b.heading.tag.matcher, pos, pos + b.heading.print.length⟩ :=
    find?_of_opensAt (opensAt_of_reads (reads_text b.heading.accepts_body) hl.remains) hl.remains
  obtain ⟨hbody, _⟩ := foundBody_text b.heading.accepts_body hl.remains
  have hblock : b.heading.tag.spec.isBlock = true := by
    cases b.heading <;> rfl
  have hbefore : literalPart base text pos pos = [] := if_neg (Nat.lt_irrefl pos)
  have hspan := hl.spanOf_eq hl.pass.pass.pass
  have hinside := hl.pass.remains.slice
  rw [RawHeading.print] at hspan hinside
  rw [advances_builtin.readFrom_raw base hfind hblock b.heading.rawBody_tag
    (b.closer?_inside hl.pass.remains), RawHeading.print, hbody, hbefore, hspan, slice, hinside]
  rfl

/-- A block around a script is read where it stands, and then what comes after it. -/
theorem readFrom_block (h : Heading) (f : Script)
    (hl : Located base text pos start (a ++ (f.print ++ (h.closing ++ l))))
    (hopens : OpensAt h.tag a text pos) :
    builtin.readFrom base text pos pos =
      let opened := start + Text.byteLength a
      let stop := pos + a.length + f.print.length + h.closing.length
      let rest := builtin.readFrom base text stop stop
      { parts := .block h.tag.spec (.ofList (h.tag.spec.body {} a)) (.ofList f.print)
          (f.parts opened)
          ⟨start, opened + Text.byteLength f.print + Text.byteLength h.closing⟩ :: rest.parts
        errors := rest.errors } := by
  have hfind := find?_of_opensAt hopens hl.remains
  have hopened : opened text ⟨h.tag.matcher, pos, pos + a.length⟩ = a := hl.remains.slice
  have hbody : builtin.foundBody text ⟨h.tag.matcher, pos, pos + a.length⟩ =
      .ofList (h.tag.spec.body {} a) := by
    rw [foundBody, hopened]
    rfl
  have hblock : h.tag.spec.isBlock = true := by
    cases h <;> rfl
  -- the inside of the block is the text of a script of its own
  have hinner := readFrom_script f _ _ _ _ (located_toArray (base + Text.offsetOf text.toList
    (pos + a.length)) f.print)
  rw [← hl.pass.remains.extract] at hinner
  have hbefore : literalPart base text pos pos = [] := if_neg (Nat.lt_irrefl pos)
  have hspan := hl.spanOf_eq hl.pass.pass.pass
  have hinside := hl.pass.remains.slice
  rw [advances_builtin.readFrom_block base hfind hblock h.rawBody_tag
    (h.closer?_inside f hl.pass.remains), hbody, hbefore, hspan, slice, hinside]
  dsimp only
  rw [hinner, hl.pass.start_eq]
  rfl

theorem readFrom_nil (hl : Located base text pos start []) :
    builtin.readFrom base text pos pos = {} := by
  let gap : Gap := ⟨[], bland_nil⟩
  have hbefore : literalPart base text pos text.size = [] := by
    rw [hl.remains.size]
    exact if_neg (Nat.lt_irrefl pos)
  rw [advances_builtin.readFrom_end base (find?_gap gap hl.remains), hbefore]

end Located

end TagScanner

/-! ### Expressions between delimiters -/

/-- The text of an expression between the usual delimiters. -/
def expressionText (e : List Char) : List Char :=
  '\x7b' :: '=' :: (e ++ ['\x7d'])

section expression
variable {text : Array Char} {pos : Nat} {e : List Char} (hline : '\n' ∉ e)
include hline

/-- A body can be passed up to its end, one character at a time at least. -/
theorem search_body_ne_none {k : Nat → Option Nat} (hl : Remains text pos (e ++ ['\x7d']))
    (hend : k (pos + e.length) ≠ none) :
    searchStar text.size (search text bodyItem) false k pos ≠ none := by
  induction e generalizing pos with
  | nil =>
      obtain ⟨n, hn⟩ := Option.ne_none_iff_exists'.mp hend
      rw [List.length_nil, Nat.add_zero] at hn
      rw [searchStar_eq, if_neg Bool.false_ne_true, hn]
      exact Option.some_ne_none n
  | cons c e ih =>
      obtain ⟨hc, hrest⟩ := not_or.mp (List.mem_cons.not.mp hline)
      have hsize := hl.size
      rw [List.length_append, List.length_cons] at hsize
      have hnext := ih hrest hl.tail (by rwa [List.length_cons, Nat.add_comm e.length,
        ← Nat.add_assoc] at hend)
      have hchar : (char (.complement (.single '\n'))).Takes c :=
        takes_char (by simpa [CharClass.contains] using hc)
      have hresume : resume text.size (search text bodyItem) false k pos (pos + 1) =
          searchStar text.size (search text bodyItem) false k (pos + 1) :=
        if_pos (by omega)
      rw [searchStar_eq, if_neg Bool.false_ne_true, Ne, Option.or_eq_none_iff, not_and]
      intro _
      rw [bodyItem, item, search, search, Option.or_eq_none_iff, Option.or_eq_none_iff, ← item,
        ← bodyItem, hchar text pos _ hl.head?, hresume]
      exact fun h => hnext h.2.2

/-- The closing brace that ends the text is the one that is found. -/
theorem search_expression (hbrace : '\x7d' ∉ e) (hl : Remains text pos (e ++ ['\x7d'])) :
    search text (star false bodyItem) pos
      (fun m => search text (seqAll [char (.single '\x7d')]) m some) =
        some (pos + e.length + 1) := by
  have hend := search_last hl.pass
  have hfound : search text (star false bodyItem) pos
      (fun m => search text (seqAll [char (.single '\x7d')]) m some) ≠ none := by
    refine search_body_ne_none hline hl ?_
    rw [hend]
    exact Option.some_ne_none _
  obtain ⟨n, hn⟩ := Option.ne_none_iff_exists'.mp hfound
  obtain ⟨m, hle, _, hm⟩ := exists_of_search hl.le hn
  rw [seqAll, search_single] at hm
  split at hm
  · next hclose =>
    -- the brace that was found is the last character
    obtain ⟨i, rfl⟩ := Nat.exists_eq_add_of_le hle
    rw [hl.getElem?] at hclose
    have hi : i = e.length := by
      rcases Nat.lt_trichotomy i e.length with hlt | heq | hgt
      · rw [List.getElem?_append_left hlt] at hclose
        exact absurd (List.mem_of_getElem? hclose) hbrace
      · exact heq
      · rw [List.getElem?_eq_none (by rw [List.length_append, List.length_singleton]; omega)]
          at hclose
        cases hclose
    rw [hn, ← hm, hi]
  · cases hm

omit hline in
/-- The body of an expression is what stands between the delimiters, without parentheses around
it. -/
theorem body_expressionText :
    expr.spec.body {} (expressionText e) = withoutParentheses (Text.trim e) := by
  have hinner : withoutDelimiters {} (expressionText e) = expr.spec.lead.toList ++ e := by
    rw [toList_lead]
    exact withoutDelimiters_braces ('=' :: e)
  exact TagDefinition.body_of_lead hinner

/-- An expression between delimiters is read as one tag, whatever is in it. -/
theorem read_expressionText (hbrace : '\x7d' ∉ e) :
    TagScanner.builtin.read (.ofList (expressionText e)) =
      { parts := [TagScanner.leafPart expr (expressionText e) 0] } := by
  have hl : TagScanner.Located 0 (expressionText e).toArray 0 0 (expressionText e ++ []) := by
    rw [List.append_nil]
    exact TagScanner.located_toArray 0 (expressionText e)
  have hopens : TagScanner.OpensAt expr (expressionText e) (expressionText e).toArray 0 := by
    have hl' : Remains (expressionText e).toArray 0 (expr.lead ++ (e ++ ['\x7d'])) :=
      remains_toArray (expressionText e)
    refine (matchAt?_eq_some_iff (groupNames_opener expr) hl.remains.le).mpr ⟨?_, rfl⟩
    show search _ (seqAll (letters expr.lead ++ [star false bodyItem, char (.single '\x7d')])) 0
      some = some (0 + (expressionText e).length)
    rw [search_letters hl', search_seqAll_cons, search_expression hline hbrace hl'.pass]
    simp only [expressionText, lead, List.length_cons, List.length_append, List.length_nil]
    congr 1
    omega
  rw [TagScanner.read, String.toList_ofList, hl.readFrom_leaf hopens rfl, hl.pass.readFrom_nil]

end expression

end TagTemplate
