import TagTemplate.Proofs.Scanning.Delimiters
import TagTemplate.Proofs.Scanning.TagText

/-! # Directives and delimiters

A directive is written without delimiters, and its pattern is the same under all of them.  But its
body is taken like that of any tag, by taking the delimiters away first, if the text has them at its
ends.

* `compile_directive`: the pattern of a directive under any delimiters.
* `withoutParentheses_arguments`: arguments that the pattern accepts are not in parentheses.
* `body_directive_iff`: the body is the arguments, unless the text of the directive happens to stand
  between the delimiters. -/

namespace TagTemplate

open Pattern

/-- The first match in the text is all of it. -/
def Pattern.MatchesWhole (p : Pattern) (s : List Char) : Prop :=
  ∃ m, p.find? s.toArray 0 = some m ∧ m.start = 0 ∧ m.stop = s.length

/-! ### Characters lost -/

theorem count_trim {c : Char} (hc : Text.isWhiteSpace c = false) (s : List Char) :
    (Text.trim s).count c = s.count c :=
  Text.count_strip hc s

theorem count_withoutParentheses_le {c : Char} (hc : Text.isWhiteSpace c = false)
    (s : List Char) : (withoutParentheses s).count c ≤ s.count c := by
  rcases withoutParentheses_cases s with h | ⟨y, hs, h⟩
  · rw [h]
  · rw [h, hs, count_trim hc, List.count_cons, List.count_append]
    omega

namespace BuiltinTag

variable {t : BuiltinTag} {d : Delimiters} {args inside : List Char}

def directive (t : BuiltinTag) (args : List Char) : List Char :=
  '@' :: t.name ++ '(' :: (args ++ [')'])

/-! ### The pattern -/

theorem compile_directive (ht : t.isDelimited = false) (d : Delimiters) :
    Fragment.compile t.spec.name t.spec.pattern d = .ok t.openerFragment := by
  have hplain : '\x7b' ∉ t.middle := by
    cases t with
    | layout | slot | output | inclusion | moduleUse | definition | invocation => decide
    | _ => cases ht
  have hfill (d : Delimiters) : fillPlaces t.spec.pattern (escape d.opening) (escape d.closing) =
      .ofList t.middle := by
    rw [fillPlaces_eq, pattern_spec, String.toList_ofList, template_eq, ht,
      if_neg Bool.false_ne_true, fill_of_not_mem d hplain]
  have husual := compile_opener t
  rw [Fragment.compile, hfill] at husual ⊢
  exact husual

theorem sign_directive (ht : t.isDelimited = false) : t.sign = '@' :: t.name := by
  cases t with
  | layout | slot | output | inclusion | moduleUse | definition | invocation => rfl
  | _ => cases ht

theorem opener_directive (ht : t.isDelimited = false) : t.opener =
    seqAll (letters ('@' :: t.name ++ ['(']) ++ [star true argumentItem, char (.single ')')]) := by
  cases t with
  | layout | slot | output | inclusion | moduleUse | definition | invocation => rfl
  | _ => cases ht

/-- No way through arguments leads past white space to a parenthesis that opens. -/
theorem searchStar_arguments {text : Array Char} {white l : List Char} {pos : Nat}
    (hwhite : ∀ c ∈ white, Text.isWhiteSpace c = true)
    (hl : Remains text pos (white ++ '(' :: l)) :
    searchStar text.size (search text argumentItem) true
      (fun m => search text (seqAll [char (.single ')')]) m some) pos = none := by
  induction white generalizing pos with
  | nil =>
      have hdeclines : argumentItem.Declines '(' :=
        declines_item (by decide) (by decide) (by decide)
      rw [searchStar_eq, if_pos rfl, hdeclines text pos _ hl.head?, Option.none_or]
      exact search_last_ne (by decide) hl
  | cons c white ih =>
      have hc := hwhite c List.mem_cons_self
      have hne {x : Char} (hx : Text.isWhiteSpace x = false) : c ≠ x := by
        rintro rfl
        rw [hx] at hc
        cases hc
      have hstop : search text (seqAll [char (.single ')')]) pos some = none :=
        search_last_ne (hne (by decide)) hl
      rw [searchStar_eq, if_pos rfl, hstop, Option.or_none]
      by_cases hline : c = '\n'
      · have hdeclines : argumentItem.Declines c := by
          rw [hline]
          exact declines_item (by decide) (by decide) (by decide)
        exact hdeclines text pos _ hl.head?
      · have htakes : argumentItem.Takes c := by
          refine takes_item (hne (by decide)) (hne (by decide)) ?_
          simp [CharClass.contains, Ne.symm hline, (hne (x := '(') (by decide)).symm,
            (hne (x := ')') (by decide)).symm]
        have htail := hl.tail
        rw [htakes text pos _ hl.head?, resume, if_pos ⟨Nat.lt_succ_self pos, htail.le⟩]
        exact ih (fun x hx => hwhite x (List.mem_cons_of_mem c hx)) htail

theorem withoutParentheses_arguments (ht : t.isDelimited = false)
    (hm : t.opener.MatchesWhole (t.directive args)) :
    withoutParentheses (Text.trim args) = Text.trim args := by
  rcases withoutParentheses_cases (Text.trim args) with h | ⟨y, hy, -⟩
  · exact h
  · obtain ⟨m, hfind, hstart, -⟩ := hm
    obtain ⟨white, back, hargs, hwhite, -⟩ := Text.exists_strip Text.isWhiteSpace args
    rw [← Text.trim, hy] at hargs
    have htext : t.directive args =
        '@' :: t.name ++ ['('] ++ (white ++ '(' :: (y ++ [')'] ++ back ++ [')'])) := by
      rw [directive, hargs]
      simp
    have hl := remains_toArray (t.directive args)
    rw [htext] at hl
    have hmatch := (find?_eq_some_iff.mp hfind).2.2.1
    rw [hstart] at hmatch
    have hsearch : (t.opener.matchAt? (t.directive args).toArray 0).map (·.pos) =
        search (t.directive args).toArray t.opener 0 some := matchAt?_pos _ (Nat.zero_le _)
    rw [hmatch, opener_directive ht, htext, search_letters hl, search_seqAll_cons, search,
      searchStar_arguments hwhite hl.pass] at hsearch
    cases hsearch

/-! ### The body -/

theorem count_name (t : BuiltinTag) : t.name.count '@' = 0 ∧ t.name.count ')' = 0 := by
  cases t <;> decide

theorem count_directive (t : BuiltinTag) (args : List Char) :
    (t.directive args).count '@' = args.count '@' + 1 ∧
      (t.directive args).count ')' = args.count ')' + 1 := by
  obtain ⟨hat, hclose⟩ := count_name t
  simp [directive, List.count_append, hat, hclose]

/-- Delimiters around a directive begin with its at sign and end with its closing parenthesis. -/
theorem count_inside (hd : d.isUsable = true)
    (h : t.directive args = d.opening.toList ++ inside ++ d.closing.toList) :
    inside.count '@' ≤ args.count '@' ∧ inside.count ')' ≤ args.count ')' := by
  obtain ⟨hat, hclose⟩ := count_directive t args
  obtain ⟨hopening, hclosing⟩ := of_decide_eq_true hd
  have hfirst : '@' ∈ d.opening.toList := by
    obtain ⟨c, o, ho⟩ := List.exists_cons_of_ne_nil (mt String.toList_eq_nil_iff.mp hopening)
    rw [ho] at h ⊢
    rw [(List.cons.inj h).1]
    exact List.mem_cons_self
  have hlast : ')' ∈ d.closing.toList := by
    refine List.mem_of_getLast? ?_
    have hend : (t.directive args).getLast? = some ')' := by
      rw [directive, ← List.cons_append, ← List.append_assoc, List.getLast?_concat]
    rw [h, List.getLast?_append_of_ne_nil _ (mt String.toList_eq_nil_iff.mp hclosing)] at hend
    exact hend
  have hfirst' := List.count_pos_iff.mpr hfirst
  have hlast' := List.count_pos_iff.mpr hlast
  rw [h, List.count_append, List.count_append] at hat hclose
  omega

theorem body_directive_of_ne (ht : t.isDelimited = false)
    (h : ∀ inside, t.directive args ≠ d.opening.toList ++ inside ++ d.closing.toList) :
    t.spec.body d (t.directive args) = Text.trim args := by
  refine TagDefinition.body_of_parentheses ?_
  rw [withoutDelimiters_of_ne h, toList_lead, sign_directive ht, directive]

theorem body_directive_between (htext : t.directive args =
      d.opening.toList ++ inside ++ d.closing.toList) (hnot : ¬ t.sign <+: inside) :
    t.spec.body d (t.directive args) = withoutParentheses (Text.trim inside) := by
  have hinner := withoutDelimiters_between d inside
  have hlead : ¬ t.spec.lead.toList <+: withoutDelimiters d (t.directive args) := by
    rwa [htext, hinner, toList_lead]
  rw [TagDefinition.body_of_no_lead hlead, htext, hinner]

/-- If the lead stands between the delimiters, an at sign of the arguments is lost. -/
theorem body_directive_ne (ht : t.isDelimited = false) (hd : d.isUsable = true)
    (htext : t.directive args = d.opening.toList ++ inside ++ d.closing.toList)
    (hlead : t.sign <+: inside) : t.spec.body d (t.directive args) ≠ Text.trim args := by
  intro hbody
  obtain ⟨rest, rfl⟩ := hlead
  have hinner : withoutDelimiters d (t.directive args) = t.spec.lead.toList ++ rest := by
    rw [htext, withoutDelimiters_between, toList_lead]
  have hcount := (count_inside hd htext).1
  rw [sign_directive ht, List.count_append, List.count_cons_self] at hcount
  have hle := count_withoutParentheses_le (c := '@') (by decide) (Text.trim rest)
  rw [← TagDefinition.body_of_lead hinner, hbody, count_trim (by decide), count_trim (by decide)]
    at hle
  omega

/-- If parentheses stand between the delimiters, a closing one of the arguments is lost. -/
theorem trim_inside_of_body (hd : d.isUsable = true)
    (htext : t.directive args = d.opening.toList ++ inside ++ d.closing.toList)
    (hnot : ¬ t.sign <+: inside) (hbody : t.spec.body d (t.directive args) = Text.trim args) :
    Text.trim inside = Text.trim args := by
  rw [body_directive_between htext hnot] at hbody
  rcases withoutParentheses_cases (Text.trim inside) with h | ⟨y, hy, h⟩
  · exact h.symm.trans hbody
  · have hcount := (count_inside hd htext).2
    have hinside := congrArg (List.count ')') hy
    have hargs := congrArg (List.count ')') (h.symm.trans hbody)
    rw [count_trim (by decide), List.count_cons_of_ne (by decide), List.count_append,
      List.count_singleton_self] at hinside
    rw [count_trim (by decide), count_trim (by decide)] at hargs
    omega

theorem attributes_builtin (t : BuiltinTag) (d : Delimiters) (s : List Char) :
    TagSet.builtin.attributes t.spec.name (.ofList s) d =
      (Attributes.ofBody t.spec.attributes (.ofList (t.spec.body d s))).mapError
        (.attributes t.spec.name) := by
  have hget : TagSet.builtin.get? t.spec.name = some t.spec := by
    cases t <;> rfl
  rw [TagSet.attributes, hget, String.toList_ofList]

/-- The body of a directive is its arguments, unless its text stands between the delimiters by
chance, and they do not take away the same as the lead and the parentheses do. -/
theorem body_directive_iff {f : Fragment} (ht : t.isDelimited = false) (hd : d.isUsable = true)
    (hf : Fragment.compile t.spec.name t.spec.pattern d = .ok f)
    (hm : f.pattern.MatchesWhole (t.directive args)) :
    (t.spec.body d (t.directive args) = Text.trim args ↔
      ∀ inside, t.directive args = d.opening.toList ++ inside ++ d.closing.toList →
        Text.trim inside = Text.trim args ∧ ¬ t.sign <+: inside) ∧
    (t.spec.body d (t.directive args) = Text.trim args →
      TagSet.builtin.attributes t.spec.name (.ofList (t.directive args)) d =
        (Attributes.ofBody t.spec.attributes (.ofList (Text.trim args))).mapError
          (.attributes t.spec.name)) := by
  have hfragment : f = t.openerFragment := by
    rw [compile_directive ht] at hf
    exact (Except.ok.inj hf).symm
  subst hfragment
  refine ⟨⟨fun hbody inside htext => ?_, fun hall => ?_⟩, fun hbody => ?_⟩
  · have hnot : ¬ t.sign <+: inside := fun hlead => body_directive_ne ht hd htext hlead hbody
    exact ⟨trim_inside_of_body hd htext hnot hbody, hnot⟩
  · by_cases hbetween : ∃ inside, t.directive args =
        d.opening.toList ++ inside ++ d.closing.toList
    · obtain ⟨inside, htext⟩ := hbetween
      obtain ⟨hsame, hnot⟩ := hall inside htext
      rw [body_directive_between htext hnot, hsame, withoutParentheses_arguments ht hm]
    · exact body_directive_of_ne ht fun inside htext => hbetween ⟨inside, htext⟩
  · rw [attributes_builtin, hbody]

/-! ### Two pairs of delimiters -/

theorem matchesWhole_directive (ht : t.isDelimited = false) (h : Repeats argumentItem ')' args) :
    t.opener.MatchesWhole (t.directive args) := by
  have htext : t.directive args = '@' :: t.name ++ ['('] ++ args ++ [')'] := by
    simp [directive]
  have hreads : t.opener.Reads (t.directive args) := by
    rw [opener_directive ht, htext]
    exact reads_directive h
  have hl : Remains (t.directive args).toArray 0 (t.directive args ++ []) := by
    rw [List.append_nil]
    exact remains_toArray _
  have hmatch := hreads.matchAt? (groupNames_opener t) hl
  exact ⟨_, find?_of_matchAt? (Nat.zero_le _) hmatch, rfl, Nat.zero_add _⟩

/-- Delimiters that are the beginning and the end of an inclusion. -/
def snugDelimiters : Delimiters :=
  ⟨"@include(", ")"⟩

/-- They stand around the directive, and take away what is no argument. -/
theorem body_directive_snugDelimiters :
    inclusion.opener.MatchesWhole (inclusion.directive [' ', 'p', 'a', 'g', 'e', ' ']) ∧
      inclusion.directive [' ', 'p', 'a', 'g', 'e', ' '] =
        snugDelimiters.opening.toList ++ [' ', 'p', 'a', 'g', 'e', ' '] ++
          snugDelimiters.closing.toList ∧
      inclusion.spec.body snugDelimiters (inclusion.directive [' ', 'p', 'a', 'g', 'e', ' ']) =
        ['p', 'a', 'g', 'e'] := by
  have hm : inclusion.opener.MatchesWhole (inclusion.directive [' ', 'p', 'a', 'g', 'e', ' ']) :=
    matchesWhole_directive rfl (repeats_of_isPlain (List.all_eq_true.mp rfl))
  have htext : inclusion.directive [' ', 'p', 'a', 'g', 'e', ' '] =
      snugDelimiters.opening.toList ++ [' ', 'p', 'a', 'g', 'e', ' '] ++
        snugDelimiters.closing.toList := by decide +kernel
  obtain ⟨hbody, -⟩ :=
    body_directive_iff rfl (by decide) (compile_directive rfl snugDelimiters) hm
  refine ⟨hm, htext, hbody.mpr fun inside hinside => ?_⟩
  have hsame := htext.symm.trans hinside
  rw [← List.append_cancel_left (List.append_cancel_right hsame)]
  exact ⟨rfl, by decide⟩

/-- Delimiters that are the first and the last character of every directive. -/
def outerDelimiters : Delimiters :=
  ⟨"@", ")"⟩

/-- The name of the directive is taken for a part of its arguments. -/
theorem body_outerDelimiters : outerDelimiters.isUsable = true ∧ inclusion.isDelimited = false ∧
    Fragment.compile inclusion.spec.name inclusion.spec.pattern outerDelimiters =
      .ok inclusion.openerFragment ∧
    inclusion.openerFragment.pattern.MatchesWhole (inclusion.directive ['x']) ∧
    inclusion.spec.body outerDelimiters (inclusion.directive ['x']) =
      ['i', 'n', 'c', 'l', 'u', 'd', 'e', '(', 'x'] ∧ Text.trim ['x'] = ['x'] := by
  refine ⟨by decide, rfl, compile_directive rfl _, matchesWhole_directive rfl
    (repeats_of_isPlain (List.all_eq_true.mp rfl)), by decide +kernel, by decide⟩

end BuiltinTag

end TagTemplate
