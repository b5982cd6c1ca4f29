import TagTemplate.Proofs.Scanning.Delimiters

/-! # Filling in both delimiters at once

The places of a pattern are filled in one after the other, those for the opening delimiter first.
What comes to stand for `{open}` can spell a place for the closing delimiter together with the
letters next to it, and then that is filled in too.

* `TemplatePart.readAll`: the places of a template and the letters around them.
* `TemplatePart.SpellsClosing`: a text put in for the opening delimiter spells, with the letters
  around it, a place for the closing one.
* `fillTogether`: the template with each of its own places filled in.
* `fillPlaces_eq_fillTogether_iff`: the places are filled in as at once, exactly if no such text is
  put in. -/

namespace TagTemplate

open Pattern

/-- A part of a template: a letter, or a place for a delimiter. -/
inductive TemplatePart where
  | letter (c : Char)
  | opening
  | closing
deriving DecidableEq, Repr

namespace TemplatePart

/-- The parts of a template, from left to right. -/
def readAll : List Char → List TemplatePart
  | [] => []
  | c :: s =>
    match _ho : Text.dropPrefix? openPlace (c :: s) with
    | some rest => opening :: readAll rest
    | none =>
      match _hc : Text.dropPrefix? closePlace (c :: s) with
      | some rest => closing :: readAll rest
      | none => letter c :: readAll s
termination_by s => s.length
decreasing_by
  · rw [Text.eq_append_of_dropPrefix? _ho, List.length_append]
    exact Nat.lt_add_of_pos_left (by decide)
  · rw [Text.eq_append_of_dropPrefix? _hc, List.length_append]
    exact Nat.lt_add_of_pos_left (by decide)
  · exact Nat.lt_succ_self _

/-- The text of a part, with texts for the places. -/
def text (o c : List Char) : TemplatePart → List Char
  | letter d => [d]
  | opening => o
  | closing => c

/-! ### Places spelled by what is put in -/

/-- After the letters `x` the end `y` of the text that is put in for the opening delimiter, and the
letters `z` after it, spell a place for the closing one.  If there are letters before it, it is used
up whole. -/
structure Spelling (inserted x y z : List Char) : Prop where
  spells : closePlace = x ++ (y ++ z)
  ne_nil : y ≠ []
  isSuffix : y <:+ inserted
  whole : x ≠ [] → y = inserted

/-- The parts begin with a place for the opening delimiter, and letters around it, that spell a
place for the closing one. -/
def SpellsFirst (inserted : List Char) (ts : List TemplatePart) : Prop :=
  ∃ x y z, Spelling inserted x y z ∧ x.map letter ++ opening :: z.map letter <+: ts

/-- Somewhere in the parts stands a place for the opening delimiter that spells, with the letters
around it, a place for the closing one. -/
def SpellsClosing (inserted : List Char) (ts : List TemplatePart) : Prop :=
  ∃ x y z, Spelling inserted x y z ∧ x.map letter ++ opening :: z.map letter <:+: ts

theorem spellsClosing_cons {inserted : List Char} {p : TemplatePart} {ts : List TemplatePart} :
    SpellsClosing inserted (p :: ts) ↔
      SpellsFirst inserted (p :: ts) ∨ SpellsClosing inserted ts := by
  simp only [SpellsClosing, SpellsFirst, List.infix_cons_iff, and_or_left, exists_or]

theorem SpellsFirst.spellsClosing {inserted : List Char} {ts : List TemplatePart}
    (h : SpellsFirst inserted ts) : SpellsClosing inserted ts := by
  obtain ⟨x, y, z, hspelling, hprefix⟩ := h
  exact ⟨x, y, z, hspelling, hprefix.isInfix⟩

/-! ### Reading a template -/

theorem isPrefix_of_letters {z w : List Char} (h : z.map letter <+: readAll w) : z <+: w := by
  fun_induction readAll w generalizing z with
  | case1 =>
    obtain rfl := List.map_eq_nil_iff.mp (List.prefix_nil.mp h)
    exact List.nil_prefix
  | case2 c s rest _ ih | case3 c s _ rest _ ih =>
    cases z with
    | nil => exact List.nil_prefix
    | cons d z => cases (List.cons_prefix_cons.mp h).1
  | case4 c s _ _ ih =>
    cases z with
    | nil => exact List.nil_prefix
    | cons d z =>
        obtain ⟨hd, hz⟩ := List.cons_prefix_cons.mp h
        cases hd
        exact List.cons_prefix_cons.mpr ⟨rfl, ih hz⟩

theorem not_isInfix_readAll (w : List Char) : ¬ closePlace.map letter <:+: readAll w := by
  fun_induction readAll w with
  | case1 =>
    intro h
    cases List.infix_nil.mp h
  | case2 c s rest _ ih | case3 c s _ rest _ ih =>
    intro h
    rcases List.infix_cons_iff.mp h with h | h
    · cases (List.cons_prefix_cons.mp h).1
    · exact ih h
  | case4 c s ho hc ih =>
    intro h
    rcases List.infix_cons_iff.mp h with h | h
    · obtain ⟨hc', hrest⟩ := List.cons_prefix_cons.mp h
      cases hc'
      have hrest : closePlace.tail <+: s := isPrefix_of_letters hrest
      exact Text.not_isPrefix_of_dropPrefix? hc (List.cons_prefix_cons.mpr ⟨rfl, hrest⟩)
    · exact ih h

/-- Filling in the opening delimiter fills in its places and leaves the other parts as they are. -/
theorem replaceFrom_openPlace (new w : List Char) :
    Text.replaceFrom openPlace new 0 w = (readAll w).flatMap (text new closePlace) := by
  fun_induction readAll w with
  | case1 => rfl
  | case2 c s rest ho ih =>
    rw [Text.eq_append_of_dropPrefix? ho, Text.replaceFrom_append (by decide), ih]
    rfl
  | case3 c s ho rest hc ih =>
    have hfree : Free (· = openPlace) closePlace rest :=
      Text.free_cons (by simp [openPlace]) (free_of_not_mem (by decide))
    rw [Text.eq_append_of_dropPrefix? hc, Text.replaceFrom_of_free hfree, ih]
    rfl
  | case4 c s ho hc ih =>
    have hfree : Free (· = openPlace) [c] s :=
      Text.free_cons (Text.not_isPrefix_of_dropPrefix? ho) .nil
    have hstep : Text.replaceFrom openPlace new 0 ([c] ++ s) =
        [c] ++ Text.replaceFrom openPlace new 0 s := Text.replaceFrom_of_free hfree
    exact hstep.trans (congrArg ([c] ++ ·) ih)

/-! ### What is put in -/

section inserted
variable {o x y z : List Char} {ts : List TemplatePart}

/-- The template with the opening delimiter filled in. -/
abbrev withOpening (o : List Char) (ts : List TemplatePart) : List Char :=
  ts.flatMap (text (escaped o) closePlace)

theorem nodup_closePlace : closePlace.Nodup := by
  decide

theorem escaped_ne_nil (ho : o ≠ []) : escaped o ≠ [] := by
  obtain ⟨d, o, rfl⟩ := List.exists_cons_of_ne_nil ho
  rw [escaped_cons]
  split <;> exact List.cons_ne_nil _ _

/-- No end of a place for the closing delimiter begins an escaped text. -/
theorem not_isPrefix_of_isSuffix (hz : z <:+ closePlace) (hne : z ≠ []) : ¬ z <+: escaped o := by
  have hback : '\\' ∉ z := fun h => absurd (hz.subset h) (by decide)
  have hlast : '\x7d' ∈ z := by
    obtain ⟨a, ha⟩ := hz
    refine List.mem_of_getLast? ?_
    rw [← List.getLast?_append_of_ne_nil a hne, ha]
    rfl
  have h := not_isPrefix_escaped (s := o) (l := []) hback ⟨_, hlast, rfl⟩ (fun _ h => nomatch h)
  rwa [List.append_nil] at h

theorem not_isInfix_escaped (o : List Char) : ¬ closePlace <:+: escaped o :=
  Text.not_isInfix_of_free (by decide) (free_escaped (l := []) (fun _ h => nomatch h) o)

/-- Where an end of a place for the closing delimiter begins a text that was filled in, it is made
of letters, unless all of what was put in for an opening delimiter stands in it. -/
theorem letters_or_opening (hz : z <:+ closePlace) (hne : z ≠ []) (hbrace : '\x7b' ∉ z)
    (h : z <+: withOpening o ts) :
    z.map letter <+: ts ∨ ∃ x w ts', z = x ++ (escaped o ++ w) ∧ w ≠ [] ∧
      ts = x.map letter ++ opening :: ts' ∧ w <+: withOpening o ts' := by
  induction ts generalizing z with
  | nil => exact absurd (List.prefix_nil.mp h) hne
  | cons p ts ih =>
      obtain ⟨d, z, rfl⟩ := List.exists_cons_of_ne_nil hne
      cases p with
      | letter e =>
          obtain ⟨rfl, htail⟩ := List.cons_prefix_cons.mp h
          by_cases hz' : z = []
          · subst hz'
            exact .inl (List.cons_prefix_cons.mpr ⟨rfl, List.nil_prefix⟩)
          · rcases ih ((List.suffix_cons d z).trans hz) hz'
              (fun hmem => hbrace (List.mem_cons_of_mem d hmem)) htail with hl | hr
            · exact .inl (List.cons_prefix_cons.mpr ⟨rfl, hl⟩)
            · obtain ⟨x, w, ts', rfl, hw, rfl, hrest⟩ := hr
              exact .inr ⟨d :: x, w, ts', rfl, hw, rfl, hrest⟩
      | opening =>
          obtain ⟨t, ht⟩ := h
          rw [withOpening, List.flatMap_cons] at ht
          rcases List.append_eq_append_iff.mp ht with ⟨a, ha, _⟩ | ⟨a, ha, hrest⟩
          · exact absurd ⟨a, ha.symm⟩ (not_isPrefix_of_isSuffix hz hne)
          · have hnil : a ≠ [] := by
              rintro rfl
              rw [List.append_nil] at ha
              exact not_isPrefix_of_isSuffix hz hne ⟨[], (List.append_nil _).trans ha⟩
            exact .inr ⟨[], a, ts, ha, hnil, rfl, ⟨t, hrest.symm⟩⟩
      | closing =>
          obtain ⟨rfl, _⟩ := List.cons_prefix_cons.mp h
          exact absurd List.mem_cons_self hbrace

/-- Such an end is made of letters if a character of what is put in is missing in it. -/
theorem letters_of_isPrefix (hz : z <:+ closePlace) (hne : z ≠ []) (hbrace : '\x7b' ∉ z)
    (h : z <+: withOpening o ts) {d : Char} (hd : d ∈ escaped o) (hmissing : d ∉ z) :
    z.map letter <+: ts := by
  rcases letters_or_opening hz hne hbrace h with h | ⟨x, w, _, rfl, _⟩
  · exact h
  · exact absurd (List.mem_append_right x (List.mem_append_left w hd)) hmissing

/-- Behind the beginning of a place for the closing delimiter there is no opening brace. -/
theorem brace_not_mem (h : closePlace = y ++ z) (hne : y ≠ []) : '\x7b' ∉ z := by
  obtain ⟨d, y, rfl⟩ := List.exists_cons_of_ne_nil hne
  obtain ⟨_, htail⟩ := List.cons.inj h
  intro hmem
  have hbrace : '\x7b' ∈ closePlace.tail := by
    rw [show closePlace.tail = y ++ z from htail]
    exact List.mem_append_right y hmem
  exact absurd hbrace (by decide)

/-- Where what is put in runs into a place for the closing delimiter, letters after it end the
place. -/
theorem spellsFirst_opening (h : ¬ Free (· = closePlace) (escaped o) (withOpening o ts)) :
    SpellsFirst (escaped o) (opening :: ts) := by
  simp only [Free, not_forall, not_not] at h
  obtain ⟨a, y, ho, hne, _, rfl, t, ht⟩ := h
  have hsuffix : y <:+ escaped o := ⟨a, ho.symm⟩
  have hinside : ¬ closePlace <+: y := fun h =>
    not_isInfix_escaped o (h.isInfix.trans hsuffix.isInfix)
  rcases List.append_eq_append_iff.mp ht with ⟨w, hw, _⟩ | ⟨z, hz, hrest⟩
  · exact absurd ⟨w, hw.symm⟩ hinside
  · have hznil : z ≠ [] := by
      rintro rfl
      rw [List.append_nil] at hz
      exact hinside (hz ▸ List.prefix_rfl)
    obtain ⟨d, hd⟩ := List.exists_mem_of_ne_nil y hne
    have hmissing : d ∉ z := fun hdz =>
      List.disjoint_of_nodup_append (hz ▸ nodup_closePlace) hd hdz
    have hletters := letters_of_isPrefix ⟨y, hz.symm⟩ hznil (brace_not_mem hz hne)
      ⟨t, hrest.symm⟩ (hsuffix.subset hd) hmissing
    exact ⟨[], y, z, ⟨hz, hne, hsuffix, fun h => absurd rfl h⟩,
      List.cons_prefix_cons.mpr ⟨rfl, hletters⟩⟩

/-- Where a place for the closing delimiter begins at a letter, and was no place before, what is put
in behind it is part of the place. -/
theorem spellsFirst_letter (ho : o ≠ []) {d : Char}
    (hplain : ¬ closePlace.map letter <+: letter d :: ts)
    (h : closePlace <+: d :: withOpening o ts) : SpellsFirst (escaped o) (letter d :: ts) := by
  obtain ⟨rfl, htail⟩ := List.cons_prefix_cons.mp h
  have hsplit : closePlace = ['\x7b'] ++ closePlace.tail := rfl
  have hsuffix : closePlace.tail <:+ closePlace := ⟨_, hsplit.symm⟩
  have hbrace : '\x7b' ∉ closePlace.tail := brace_not_mem hsplit (List.cons_ne_nil _ _)
  rcases letters_or_opening hsuffix (List.cons_ne_nil _ _) hbrace htail with hletters | hopening
  · exact absurd (List.cons_prefix_cons.mpr ⟨rfl, hletters⟩) hplain
  · obtain ⟨x, z, ts', hxz, hne, rfl, hz⟩ := hopening
    have hspells : closePlace = ('\x7b' :: x) ++ (escaped o ++ z) := by
      rw [hsplit, hxz]
      rfl
    -- each character stands once in the place, so nothing put in later is a part of it
    obtain ⟨e, he⟩ := List.exists_mem_of_ne_nil _ (escaped_ne_nil ho)
    have hmissing : e ∉ z := by
      have hnodup := (List.nodup_append.mp (hspells ▸ nodup_closePlace)).2.1
      exact fun hez => List.disjoint_of_nodup_append hnodup he hez
    have hzsuffix : z <:+ closePlace :=
      ⟨('\x7b' :: x) ++ escaped o, by rw [List.append_assoc]; exact hspells.symm⟩
    have hzbrace : '\x7b' ∉ z := fun hmem =>
      brace_not_mem hspells (List.cons_ne_nil _ _) (List.mem_append_right _ hmem)
    obtain ⟨t, rfl⟩ := letters_of_isPrefix hzsuffix hne hzbrace hz he hmissing
    refine ⟨'\x7b' :: x, escaped o, z, ⟨hspells, escaped_ne_nil ho, List.suffix_rfl, fun _ => rfl⟩,
      t, ?_⟩
    simp

/-! ### The second pass -/

/-- No place for the closing delimiter begins before another one, if there is none in the text. -/
theorem free_closePlace (h : ¬ closePlace <:+: x) (l : List Char) :
    Free (· = closePlace) x (closePlace ++ l) := by
  rintro a b rfl hne _ rfl ⟨t, ht⟩
  have hinside : ¬ closePlace <+: b := fun hb =>
    h (hb.isInfix.trans (List.suffix_append a b).isInfix)
  rcases List.append_eq_append_iff.mp ht with ⟨w, hw, _⟩ | ⟨w, hw, hrest⟩
  · exact hinside ⟨w, hw.symm⟩
  · cases w with
    | nil => exact hinside ⟨[], (List.append_nil _).trans (hw.trans (List.append_nil b))⟩
    | cons d w =>
        obtain ⟨rfl, _⟩ := List.cons.inj hrest
        exact brace_not_mem hw hne List.mem_cons_self

/-- The text that a place for the opening delimiter with letters around it comes to. -/
theorem flatMap_text_letters (o c : List Char) (x z : List Char) (ts : List TemplatePart) :
    (x.map letter ++ opening :: z.map letter ++ ts).flatMap (text o c) =
      x ++ (o ++ (z ++ ts.flatMap (text o c))) := by
  have hletters (w : List Char) : (w.map letter).flatMap (text o c) = w := by
    rw [List.flatMap_map]
    exact List.flatMap_singleton' w
  rw [List.flatMap_append, List.flatMap_append, List.flatMap_cons, hletters, hletters]
  simp [text]

/-- What a spelling leaves of the text put in stands before the place that is spelled. -/
theorem Spelling.exists_front (h : Spelling (escaped o) x y z) :
    ∃ a, ¬ closePlace <:+: a ∧ ∀ l, x ++ (escaped o ++ (z ++ l)) = a ++ (closePlace ++ l) := by
  by_cases hx : x = []
  · obtain ⟨a, ha⟩ := h.isSuffix
    have hprefix : a <+: escaped o := ⟨y, ha⟩
    refine ⟨a, fun hinside => not_isInfix_escaped o (hinside.trans hprefix.isInfix), fun l => ?_⟩
    rw [h.spells, hx, ← ha]
    simp
  · refine ⟨[], by decide, fun l => ?_⟩
    rw [h.spells, h.whole hx]
    simp

/-- Where a place for the closing delimiter is spelled, the second pass fills it in. -/
theorem SpellsFirst.replaceFrom_eq (h : SpellsFirst (escaped o) ts) (c : List Char) :
    ∃ a ts', ts' <:+ ts ∧ ts'.length < ts.length ∧
      ts.flatMap (text (escaped o) c) = a ++ (closePlace ++ ts'.flatMap (text (escaped o) c)) ∧
      Text.replaceFrom closePlace c 0 (withOpening o ts) =
        a ++ (c ++ Text.replaceFrom closePlace c 0 (withOpening o ts')) := by
  obtain ⟨x, y, z, hspelling, ts', rfl⟩ := h
  obtain ⟨a, ha, hfront⟩ := hspelling.exists_front
  refine ⟨a, ts', List.suffix_append _ ts', ?_, ?_, ?_⟩
  · simp
    omega
  · rw [flatMap_text_letters, hfront]
  · rw [withOpening, flatMap_text_letters, hfront, Text.replaceFrom_of_free (free_closePlace ha _),
      Text.replaceFrom_append (by decide)]

/-- Where none is spelled, the second pass fills in the first part and goes on behind it. -/
theorem replaceFrom_cons (ho : o ≠ []) (c : List Char) {p : TemplatePart}
    (hplain : ¬ closePlace.map letter <+: p :: ts) (h : ¬ SpellsFirst (escaped o) (p :: ts)) :
    Text.replaceFrom closePlace c 0 (withOpening o (p :: ts)) =
      text (escaped o) c p ++ Text.replaceFrom closePlace c 0 (withOpening o ts) := by
  rw [withOpening, List.flatMap_cons]
  cases p with
  | letter d =>
      have hnot : ¬ closePlace <+: d :: withOpening o ts := fun hd =>
        h (spellsFirst_letter ho hplain hd)
      exact Text.replaceFrom_of_free (Text.free_cons hnot .nil)
  | opening =>
      have hfree : Free (· = closePlace) (escaped o) (withOpening o ts) :=
        not_not.mp fun hfree => h (spellsFirst_opening hfree)
      exact Text.replaceFrom_of_free hfree
  | closing => exact Text.replaceFrom_append (by decide)

/-! ### Both passes -/

/-- A text with places marked in it, where `new` is put in for each of them. -/
def spell (new : List Char) (marked : List (Option Char)) : List Char :=
  marked.flatMap fun m => m.elim new fun d => [d]

theorem spell_append (new : List Char) (a b : List (Option Char)) :
    spell new (a ++ b) = spell new a ++ spell new b :=
  List.flatMap_append

theorem spell_letters (new w : List Char) : spell new (w.map some) = w := by
  rw [spell, List.flatMap_map]
  exact List.flatMap_singleton' w

theorem length_spell (new : List Char) (marked : List (Option Char)) :
    (spell new marked).length + marked.count none =
      marked.length + marked.count none * new.length := by
  induction marked with
  | nil => simp [spell]
  | cons m marked ih =>
      have hstep : (spell new (m :: marked)).length =
          (m.elim new fun d => [d]).length + (spell new marked).length := by
        rw [spell, List.flatMap_cons, List.length_append]
        rfl
      cases m with
      | none =>
          rw [hstep, List.count_cons_self, List.length_cons, Nat.succ_mul, Option.elim_none]
          omega
      | some d =>
          rw [hstep, List.count_cons_of_ne (by simp), List.length_cons, Option.elim_some,
            List.length_singleton]
          omega

/-- Two different texts put in for marked places give the same only if there are none. -/
theorem spell_eq_spell_iff {new new' : List Char} (hne : new ≠ new') {marked : List (Option Char)} :
    spell new marked = spell new' marked ↔ none ∉ marked := by
  constructor
  · intro h hmem
    have hlength : new.length = new'.length := by
      have hcount := List.count_pos_iff.mpr hmem
      have hnew := length_spell new marked
      have hnew' := length_spell new' marked
      rw [h] at hnew
      exact Nat.eq_of_mul_eq_mul_left hcount (by omega)
    induction marked with
    | nil => cases hmem
    | cons m marked ih =>
        cases m with
        | none => exact hne (List.append_inj h hlength).1
        | some d =>
            have htail : none ∈ marked := (List.mem_cons.mp hmem).resolve_left (by simp)
            exact ih (List.cons.inj h).2 htail
  · intro hmem
    refine List.flatMap_congr fun m hm => ?_
    cases m with
    | none => exact absurd hm hmem
    | some d => rfl

/-- The second pass and filling in at once differ in the places for the closing delimiter that are
spelled on the way: the one puts in the delimiter, and the other leaves them. -/
theorem exists_marked (ho : o ≠ []) (c : List Char) (ts : List TemplatePart)
    (hplain : ¬ closePlace.map letter <:+: ts) :
    ∃ marked, Text.replaceFrom closePlace c 0 (withOpening o ts) = spell c marked ∧
      ts.flatMap (text (escaped o) c) = spell closePlace marked ∧
      (none ∈ marked ↔ SpellsClosing (escaped o) ts) := by
  -- a spelled place takes several parts at once, so the induction is on the number of parts left
  by_cases hfirst : SpellsFirst (escaped o) ts
  · obtain ⟨a, ts', hsuffix, hlt, htogether, hsecond⟩ := hfirst.replaceFrom_eq c
    obtain ⟨marked, hc, hclose, -⟩ :=
      exists_marked ho c ts' fun h => hplain (h.trans hsuffix.isInfix)
    refine ⟨a.map some ++ none :: marked, ?_, ?_, iff_of_true ?_ hfirst.spellsClosing⟩
    · rw [hsecond, hc, spell_append, spell_letters]
      rfl
    · rw [htogether, hclose, spell_append, spell_letters]
      rfl
    · exact List.mem_append_right _ List.mem_cons_self
  · cases ts with
    | nil => exact ⟨[], rfl, rfl, by simp [SpellsClosing]⟩
    | cons p ts =>
        obtain ⟨marked, hc, hclose, hmarked⟩ :=
          exists_marked ho c ts fun h => hplain (h.trans (List.suffix_cons p ts).isInfix)
        refine ⟨(text (escaped o) c p).map some ++ marked, ?_, ?_, ?_⟩
        · rw [replaceFrom_cons ho c (fun h => hplain h.isInfix) hfirst, hc, spell_append,
            spell_letters]
        · rw [List.flatMap_cons, hclose, spell_append, spell_letters]
        · rw [spellsClosing_cons, or_iff_right hfirst, ← hmarked]
          simp
termination_by ts.length

end inserted

end TemplatePart

/-! ### The source of a fragment -/

open TemplatePart

/-- The template of a pattern with each of its own places filled in, and nothing else changed. -/
def fillTogether (template opening closing : String) : String :=
  .ofList ((readAll template.toList).flatMap (text opening.toList closing.toList))

/-- The source of every fragment is its template with the places filled in.  With an opening
delimiter that is not empty this is the template with each of its own places filled in, exactly
unless the text for the opening delimiter spells, somewhere in the template, a place for the closing
one with the letters around it. -/
theorem fillPlaces_eq_fillTogether_iff (d : Delimiters) (h : d.opening ≠ "") (template : String) :
    (∀ tag f, Fragment.compile tag template d = .ok f →
      f.source = fillPlaces template (escape d.opening) (escape d.closing)) ∧
    (fillPlaces template (escape d.opening) (escape d.closing) =
        fillTogether template (escape d.opening) (escape d.closing) ↔
      ¬ SpellsClosing (escape d.opening).toList (readAll template.toList)) := by
  refine ⟨fun tag f hf => Fragment.source_of_compile hf, ?_⟩
  have ho : d.opening.toList ≠ [] := mt String.toList_eq_nil_iff.mp h
  obtain ⟨marked, hfill, htogether, hmarked⟩ := exists_marked ho (escaped d.closing.toList)
    (readAll template.toList) (not_isInfix_readAll template.toList)
  have hfill : fill d template.toList = spell (escaped d.closing.toList) marked := by
    rw [← hfill, withOpening, ← replaceFrom_openPlace]
    rfl
  have hne : escaped d.closing.toList ≠ closePlace := fun heq =>
    not_isInfix_escaped d.closing.toList (heq ▸ List.infix_rfl)
  rw [fillPlaces_eq, fillTogether, toList_escape, toList_escape, hfill, htogether, ← hmarked,
    String.ofList_inj, spell_eq_spell_iff hne]

/-- With the delimiter `o` the letters around the place in the template `{cl{open}se}` spell a place
for the closing delimiter. -/
theorem fillPlaces_ne_fillTogether_letter :
    (⟨"o", "c"⟩ : Delimiters).opening ≠ "" ∧
    fillPlaces "\x7bcl{open}se\x7d" (escape "o") (escape "c") ≠
      fillTogether "\x7bcl{open}se\x7d" (escape "o") (escape "c") := by
  refine ⟨by decide, fun h => ?_⟩
  refine (fillPlaces_eq_fillTogether_iff ⟨"o", "c"⟩ (by decide) _).2.mp h ?_
  refine ⟨['\x7b', 'c', 'l'], ['o'], ['s', 'e', '\x7d'], ⟨rfl, by simp, ?_, fun _ => ?_⟩, ?_⟩
  · decide
  · decide
  · simp [readAll, Text.dropPrefix?, openPlace, closePlace]

/-- In the template `{open}close}` the delimiter `{`, put in with a backslash before it, becomes a
part of a place for the closing one. -/
theorem compile_loses_opening :
    (∃ f, Fragment.compile "t" "{open}close\x7d" {} = .ok f ∧ f.source = "\\\\\x7d") ∧
    fillTogether "{open}close\x7d" (escape "\x7b") (escape "\x7d") = "\\\x7bclose\x7d" := by
  refine ⟨⟨⟨"\\\\\x7d", .seq (.char (.single '\\')) (.char (.single '\x7d'))⟩, rfl, rfl⟩, ?_⟩
  have hparts : readAll "{open}close\x7d".toList =
      opening :: ['c', 'l', 'o', 's', 'e', '\x7d'].map letter := by
    simp [readAll, Text.dropPrefix?, openPlace, closePlace]
  rw [fillTogether, hparts]
  rfl

end TagTemplate
