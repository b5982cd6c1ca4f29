import TagTemplate.Proofs.Scanning.RoundTrip
import TagTemplate.Proofs.Scanning.Shifts

/-! # Two texts that differ in one tag

Two texts that are alike before and behind the text of a tag.  Positions before the tag and behind
it correspond; those inside it do not.

* `Heeds`: a pattern matches before the tag as if nothing came after, and takes all of the tag or
  nothing of it.
* `Track.seen_patch`: such a pattern matches alike at corresponding positions.
* `Track.closer?_patch`: if no marks of blocks stand inside the tag, the closing tags of the blocks
  around it correspond. -/

namespace TagTemplate

open Pattern BuiltinTag

namespace Pattern

variable {p : Pattern} {w z P S a b l : List Char}

theorem taken?_eq_none_of_stem (h : ¬ p.stem <+: l) : p.taken? l = none := by
  by_contra hne
  exact h (stem_of_search p (remains_toArray l) hne)

theorem Reads.taken? (h : p.Reads w) (l : List Char) : p.taken? (w ++ l) = some w.length := by
  rw [Pattern.taken?, h _ 0 l (remains_toArray _), Nat.zero_add]

theorem taken?_letters (z l : List Char) :
    (seqAll (letters z)).taken? l = if z <+: l then some z.length else none := by
  split
  · next h =>
    obtain ⟨l, rfl⟩ := h
    exact (reads_letters z).taken? l
  · next h => exact taken?_eq_none_of_stem (by rwa [stem_letters])

/-- What the pattern takes at the beginning of a text it takes of a text that goes on, unless it
takes more of that; and if it takes nothing of the longer text, it takes nothing of the shorter
one. -/
theorem taken?_of_append {n : Nat} (hp : p.Anchorless) (hn : n ≤ a.length) :
    Follows n n (p.taken? (a ++ b)) (p.taken? a) := by
  have hw : Window (a ++ b).toArray a.toArray 0 0 a.length := by
    refine ⟨fun {i} hi => ?_, by simp, by simp⟩
    rw [Nat.zero_add, List.getElem?_toArray, List.getElem?_toArray, List.getElem?_append_left hi]
  refine search_window (joint_follows n n) hw hp (Nat.zero_le _)
    ⟨fun _ _ => ⟨id, nofun⟩, fun {m} hm _ => ⟨fun heq => ?_, nofun⟩, fun {m} hm hsize => ?_⟩
  · have := Option.some.inj heq
    omega
  · rw [List.size_toArray] at hsize
    omega

/-- Where the pattern takes something in the text `P`, it does not reach into `l` behind it. -/
def StopsIn (p : Pattern) (P l : List Char) : Prop :=
  ∀ a b n, P = a ++ b → b ≠ [] → p.taken? (b ++ l) = some n → n ≤ b.length

namespace StopsIn

theorem suffix (h : p.StopsIn (a ++ P) l) : p.StopsIn P l :=
  fun b c n heq => h (a ++ b) c n (by rw [heq, List.append_assoc])

/-- What the pattern takes is decided by the text that it stops in. -/
theorem taken?_eq (h : p.StopsIn P l) (hp : p.Anchorless) (hP : P = a ++ b) (hb : b ≠ []) :
    p.taken? (b ++ l) = p.taken? b := by
  cases htaken : p.taken? (b ++ l) with
  | none => exact ((taken?_of_append hp (Nat.zero_le _)).2 htaken).symm
  | some n => exact ((taken?_of_append hp (h a b n hP hb htaken)).1 htaken).symm

theorem shorten (h : p.StopsIn P (l ++ S)) (hp : p.Anchorless) : p.StopsIn P l := by
  intro a b n hP hb hn
  cases htaken : p.taken? (b ++ l ++ S) with
  | none =>
      rw [(taken?_of_append hp (Nat.zero_le _)).2 htaken] at hn
      cases hn
  | some m =>
      have hm : m ≤ b.length := h a b m hP hb (by rwa [← List.append_assoc])
      rw [(taken?_of_append hp (by rw [List.length_append]; omega)).1 htaken] at hn
      cases hn
      exact hm

end StopsIn

/-- What the pattern takes in the text `P` is decided by `P`, whatever comes after it. -/
def StandsAlone (p : Pattern) (P : List Char) : Prop :=
  ∀ l, p.StopsIn P l

/-- Where a piece `w` stands between `P` and `S`, the pattern matches in `P` as if nothing came
after it, and where the piece begins it takes all of it or nothing. -/
structure Heeds (p : Pattern) (own : Bool) (P w S : List Char) : Prop where
  anchorless : p.Anchorless
  groupNames : p.groupNames = []
  before (a b : List Char) (h : P = a ++ b) (hne : b ≠ []) :
    p.taken? (b ++ (w ++ S)) = p.taken? b
  here : p.taken? (w ++ S) = if own then some w.length else none

end Pattern

/-- The last character of a match, if the last pattern asks for one. -/
theorem Pattern.getElem?_of_search {text : Array Char} {c : Char} {ps : List Pattern} :
    ∀ {pos n : Nat}, pos ≤ text.size →
      search text (seqAll (ps ++ [char (.single c)])) pos some = some n →
        0 < n ∧ text[n - 1]? = some c := by
  induction ps with
  | nil =>
      intro pos n _ h
      rw [List.nil_append, seqAll, search_single] at h
      split at h
      · next hc =>
        cases h
        exact ⟨Nat.succ_pos pos, hc⟩
      · cases h
  | cons p ps ih =>
      intro pos n hpos h
      rw [List.cons_append, search_seqAll_cons] at h
      obtain ⟨m, _, hm, h⟩ := exists_of_search hpos h
      exact ih hm h

namespace Track

/-! ### The track of a patch -/

/-- Positions before two pieces, which begin `p` characters behind two positions, and at most `r`
characters behind the pieces. -/
def patch (pos pos' p r : Nat) {n n' : Nat} (hn : 0 < n) (hn' : 0 < n') : Track where
  faces i i' :=
    (shift pos pos' p).faces i i' ∨ (shift (pos + p + n) (pos' + p + n') r).faces i i'
  lt_iff := by
    rintro i i' j j' (⟨a, _, rfl, rfl⟩ | ⟨a, _, rfl, rfl⟩) (⟨b, _, rfl, rfl⟩ | ⟨b, _, rfl, rfl⟩) <;>
      omega

section patch
variable {text text' : Array Char} {pos pos' : Nat} {P w w' S : List Char} {p : Pattern} {own : Bool}
  (hw : 0 < w.length) (hw' : 0 < w'.length)
  (hl : Remains text pos (P ++ (w ++ S))) (hl' : Remains text' pos' (P ++ (w' ++ S)))

theorem faces_patch : (patch pos pos' P.length S.length hw hw').faces pos pos' :=
  .inl (faces_shift _ _ _)

theorem place_patch (hl : Remains text pos (P ++ (w ++ S)))
    (hfree : Free (· = p.stem) w.tail S) {i : Nat} (hi : pos ≤ i) (hsize : i ≤ text.size) :
    (∃ j ≤ P.length, i = pos + j) ∨ (∃ j ≤ S.length, i = pos + P.length + w.length + j) ∨
      p.matchAt? text i = none := by
  have hend := hl.size
  rw [List.length_append, List.length_append] at hend
  rcases Nat.lt_or_ge (pos + P.length) i with hbehind | hbefore
  · rcases Nat.lt_or_ge i (pos + P.length + w.length) with hinside | hbehind
    · cases w with
      | nil =>
          rw [List.length_nil] at hinside
          omega
      | cons c w =>
          rw [List.length_cons] at hinside
          exact .inr (.inr (matchAt?_of_free hfree rfl hl.pass.tail (by omega) (by
            rw [List.tail_cons]
            omega)))
    · exact .inr (.inl ⟨i - (pos + P.length + w.length), by omega, by omega⟩)
  · exact .inl ⟨i - pos, by omega, by omega⟩

variable (h : p.Heeds own P w S) (h' : p.Heeds own P w' S)
include hl hl' h h'

/-- The pattern matches alike before the pieces, where they begin and behind them. -/
theorem seen_patch {i i' : Nat} (hi : (patch pos pos' P.length S.length hw hw').faces i i') :
    Option.Rel (fun u u' : Trail => (patch pos pos' P.length S.length hw hw').faces u.pos u'.pos)
      (p.matchAt? text i) (p.matchAt? text' i') := by
  rcases hi with ⟨j, hj, rfl, rfl⟩ | hi
  · have hj' {v : List Char} : j ≤ (P ++ v).length := by
      rw [List.length_append]
      omega
    rw [matchAt?_eq_taken? h.anchorless h.groupNames (hl.behind hj'),
      matchAt?_eq_taken? h.anchorless h.groupNames (hl'.behind hj')]
    rw [List.drop_append_of_le_length hj, List.drop_append_of_le_length hj]
    rcases Nat.lt_or_eq_of_le hj with hlt | rfl
    · have hne : P.drop j ≠ [] := by
        rw [Ne, List.drop_eq_nil_iff]
        omega
      have hsplit : P = P.take j ++ P.drop j := (List.take_append_drop j P).symm
      rw [h.before _ _ hsplit hne, h'.before _ _ hsplit hne]
      cases htaken : p.taken? (P.drop j) with
      | none => exact .none
      | some n =>
          have hn := taken?_le htaken
          rw [List.length_drop] at hn
          exact .some (.inl ⟨j + n, by omega, Nat.add_assoc _ _ _, Nat.add_assoc _ _ _⟩)
    · rw [List.drop_length, List.nil_append, List.nil_append, h.here, h'.here]
      cases own with
      | false => exact .none
      | true => exact .some (.inr ⟨0, Nat.zero_le _, rfl, rfl⟩)
  · have hrel := seen_shift hl.pass.pass hl'.pass.pass h.anchorless h.groupNames hi
    generalize p.matchAt? text i = o, p.matchAt? text' i' = o' at hrel
    cases hrel with
    | none => exact .none
    | some hu => exact .some (.inr hu)

/-- A pattern that matches nowhere inside the pieces is found alike. -/
theorem sees_patch (hfree : Free (· = p.stem) w.tail S) (hfree' : Free (· = p.stem) w'.tail S) :
    (patch pos pos' P.length S.length hw hw').Sees text text' p where
  le {i i'} hi := by
    have hend := hl.size
    have hend' := hl'.size
    rw [List.length_append, List.length_append] at hend hend'
    rcases hi with ⟨j, hj, rfl, rfl⟩ | ⟨j, hj, rfl, rfl⟩ <;> omega
  seen hi := seen_patch hw hw' hl hl' h h' hi
  left {q q' i} hq hi hsize := by
    have hpos : pos ≤ i := by
      rcases hq with ⟨j, hj, rfl, rfl⟩ | ⟨j, hj, rfl, rfl⟩ <;> omega
    rcases place_patch hl hfree hpos hsize with ⟨j, hj, rfl⟩ | ⟨j, hj, rfl⟩ | hnone
    · exact .inl ⟨pos' + j, .inl ⟨j, hj, rfl, rfl⟩⟩
    · exact .inl ⟨pos' + P.length + w'.length + j, .inr ⟨j, hj, rfl, rfl⟩⟩
    · exact .inr hnone
  right {q q' i'} hq hi hsize := by
    have hpos : pos' ≤ i' := by
      rcases hq with ⟨j, hj, rfl, rfl⟩ | ⟨j, hj, rfl, rfl⟩ <;> omega
    rcases place_patch hl' hfree' hpos hsize with ⟨j, hj, rfl⟩ | ⟨j, hj, rfl⟩ | hnone
    · exact .inl ⟨pos + j, .inl ⟨j, hj, rfl, rfl⟩⟩
    · exact .inl ⟨pos + P.length + w.length + j, .inr ⟨j, hj, rfl, rfl⟩⟩
    · exact .inr hnone

end patch

end Track

/-! ### Marks around a tag -/

namespace BuiltinTag

theorem not_mem_dropLast_mark : ∀ v ∈ marks, '\x7d' ∉ v.dropLast ∧ ')' ∉ v.dropLast := by
  decide +kernel

/-- The last pattern of an opening pattern is a closing brace or parenthesis. -/
theorem exists_opener_eq (t : BuiltinTag) : ∃ ps c, t.opener = seqAll (ps ++ [char (.single c)]) ∧
    (c = '\x7d' ∨ c = ')') := by
  have hsplit (c : Char) (h : (letters t.lead ++ t.remainder).getLast? = some (char (.single c))) :
      t.opener = seqAll ((letters t.lead ++ t.remainder).dropLast ++ [char (.single c)]) := by
    rw [List.dropLast_append_getLast? _ h]
    rfl
  cases t with
  | var | loopVar | expr | binding | conditional | whileLoop | eachLoop | untilLoop | await
  | comment => exact ⟨_, '\x7d', hsplit _ rfl, .inl rfl⟩
  | layout | slot | output | inclusion | moduleUse | definition | invocation =>
      exact ⟨_, ')', hsplit _ rfl, .inr rfl⟩

variable {t g : BuiltinTag} {P w z S : List Char}

/-- A text that an opening pattern reads ends in a closing brace or parenthesis. -/
theorem getLast?_of_reads (h : t.opener.Reads w) :
    ∃ c, w.getLast? = some c ∧ (c = '\x7d' ∨ c = ')') := by
  obtain ⟨ps, c, hopener, hc⟩ := t.exists_opener_eq
  have hl : Remains w.toArray 0 (w ++ []) := by
    rw [List.append_nil]
    exact remains_toArray w
  have hread := h _ _ _ hl
  rw [hopener, Nat.zero_add] at hread
  refine ⟨c, ?_, hc⟩
  rw [List.getLast?_eq_getElem?, ← List.getElem?_toArray]
  exact (getElem?_of_search (Nat.zero_le _) hread).2

/-- A mark that does not stand in a text behind its first character does not begin there. -/
theorem free_tail (hz : z ∈ marks) (hreads : t.opener.Reads w) (hnot : ¬ z <:+: w.tail) :
    Free (· = z) w.tail S := by
  rintro a b hab hne v rfl hprefix
  rcases List.prefix_or_prefix_of_prefix hprefix (List.prefix_append b S) with hin | ⟨r, rfl⟩
  · exact hnot (hin.isInfix.trans ⟨a, [], by rw [hab, List.append_nil]⟩)
  · -- the last character of the text would stand inside the mark
    obtain ⟨c, hlast, hc⟩ := getLast?_of_reads hreads
    have hw : w ≠ [] := by
      rintro rfl
      cases hlast
    have hb : c ∈ b := by
      rw [← List.cons_head_tail hw, hab, ← List.cons_append, List.getLast?_append_of_ne_nil _ hne]
        at hlast
      exact List.mem_of_getLast? hlast
    cases r with
    | nil => exact hnot ⟨a, [], by rw [hab, List.append_nil, List.append_nil]⟩
    | cons d r =>
        have hmem : c ∈ (b ++ d :: r).dropLast := by
          rw [List.dropLast_append_of_ne_nil (List.cons_ne_nil d r)]
          exact List.mem_append_left _ hb
        obtain ⟨hbrace, hparen⟩ := not_mem_dropLast_mark _ hz
        rcases hc with rfl | rfl
        · exact hbrace hmem
        · exact hparen hmem

theorem lead_prefix_of_reads (h : t.opener.Reads w) : t.lead <+: w := by
  rw [← stem_opener t]
  exact h.stem

/-- The opening patterns heed a tag that stands where no other tag reaches. -/
theorem heeds_opener (h : t.opener.Reads w) (hstops : g.opener.StopsIn P (w ++ S)) :
    g.opener.Heeds (g = t) P w S where
  anchorless := anchorless_opener g
  groupNames := groupNames_opener g
  before _ _ hP hne := hstops.taken?_eq (anchorless_opener g) hP hne
  here := by
    by_cases hgt : g = t
    · rw [hgt, h.taken?, if_pos (by simp)]
    · rw [if_neg (by simpa using hgt)]
      refine taken?_eq_none_of_stem fun hlead => hgt (lead_injective ?_)
      rw [stem_opener] at hlead
      exact mark_unique (lead_mem_marks g) (lead_mem_marks t) hlead
        ((lead_prefix_of_reads h).trans (List.prefix_append w S))

theorem heeds_closing (h : t.opener.Reads w) (hz : g.closing? = some z) :
    (seqAll (letters z)).Heeds false P w S where
  anchorless := anchorless_seqAll (anchorless_letters z)
  groupNames := groupNames_seqAll_letters z
  before a b _ hne := by
    rw [taken?_letters, taken?_letters]
    refine if_congr ⟨fun hprefix => ?_, fun hb => hb.trans (List.prefix_append b _)⟩ rfl rfl
    rcases List.prefix_or_prefix_of_prefix hprefix (List.prefix_append b _) with hb | ⟨r, rfl⟩
    · exact hb
    · cases r with
      | nil => exact (List.append_nil b).symm ▸ List.prefix_rfl
      | cons c r =>
          -- a closing tag does not reach into the mark of another tag
          rw [List.prefix_append_right_inj] at hprefix
          have hc : c ∈ (b ++ c :: r).tail := by
            rw [List.tail_append_of_ne_nil hne]
            exact List.mem_append_right _ List.mem_cons_self
          obtain ⟨hbrace, hat⟩ := bland_tail_closing hz c hc
          obtain ⟨r', hr'⟩ := hprefix
          rw [List.cons_append] at hr'
          refine absurd ?_ (still_of_head (l := r ++ r') hbrace hat t.lead (lead_mem_marks t))
          rw [hr']
          exact (lead_prefix_of_reads h).trans (List.prefix_append w S)
  here := by
    rw [taken?_letters, if_neg]
    · rfl
    · exact fun hprefix => lead_ne_closing hz (mark_unique (lead_mem_marks t) (closing_mem_marks hz)
        ((lead_prefix_of_reads h).trans (List.prefix_append w S)) hprefix)

/-- The marks of a block do not stand in a text behind its first character. -/
def AbsentIn (g : BuiltinTag) (w : List Char) : Prop :=
  ∀ z, g.closing? = some z → ¬ g.lead <:+: w.tail ∧ ¬ z <:+: w.tail

/-- Behind its first character a text has no marks of raw blocks, nor of blocks that open in `P`. -/
def Neutral (P w : List Char) : Prop :=
  ∀ g : BuiltinTag, g.spec.rawBody = true ∨ g.lead <:+: P → g.AbsentIn w

/-- Between `P` and `S` the tag can be written in two ways that the texts around it cannot tell
apart. -/
structure Exchange (t : BuiltinTag) (P S w w' : List Char) : Prop where
  reads : t.opener.Reads w
  reads' : t.opener.Reads w'
  neutral : Neutral P w
  neutral' : Neutral P w'
  stops (g : BuiltinTag) : g.opener.StopsIn P (w ++ S)
  stops' (g : BuiltinTag) : g.opener.StopsIn P (w' ++ S)

namespace Exchange

variable {a r w' : List Char}

theorem suffix (h : Exchange t (a ++ P) S w w') : Exchange t P S w w' where
  reads := h.reads
  reads' := h.reads'
  neutral g hg := h.neutral g (hg.imp_right fun hP => hP.trans (List.suffix_append a P).isInfix)
  neutral' g hg := h.neutral' g (hg.imp_right fun hP => hP.trans (List.suffix_append a P).isInfix)
  stops g := (h.stops g).suffix
  stops' g := (h.stops' g).suffix

theorem shorten (h : Exchange t P (S ++ r) w w') : Exchange t P S w w' where
  reads := h.reads
  reads' := h.reads'
  neutral := h.neutral
  neutral' := h.neutral'
  stops g := by
    have hstops := h.stops g
    rw [← List.append_assoc] at hstops
    exact hstops.shorten (anchorless_opener g)
  stops' g := by
    have hstops := h.stops' g
    rw [← List.append_assoc] at hstops
    exact hstops.shorten (anchorless_opener g)

end Exchange

theorem ne_nil_of_reads (h : t.opener.Reads w) : w ≠ [] := by
  rintro rfl
  obtain ⟨_, hlast, _⟩ := getLast?_of_reads h
  cases hlast

end BuiltinTag

/-! ### Texts that stand alone -/

/-- A pattern that stops in two texts wherever they stand stops in both together. -/
theorem Pattern.StandsAlone.append {p : Pattern} {P P' : List Char} (h : p.StandsAlone P)
    (h' : p.StandsAlone P') : p.StandsAlone (P ++ P') := by
  intro l a b n heq hne hn
  rcases List.append_eq_append_iff.mp heq with ⟨m, rfl, hm⟩ | ⟨m, rfl, rfl⟩
  · exact h' l m b n hm hne hn
  · by_cases hnil : m = []
    · subst hnil
      exact h' l [] P' n rfl hne hn
    · rw [List.append_assoc] at hn
      have := h (P' ++ l) a m n rfl hnil hn
      rw [List.length_append]
      omega

namespace BuiltinTag

variable {g : BuiltinTag}

/-- Nothing opens in a text in which no mark begins. -/
theorem standsAlone_of_still {P : List Char}
    (h : ∀ a b l, P = a ++ b → b ≠ [] → Still (b ++ l)) : g.opener.StandsAlone P := by
  intro l a b n heq hne hn
  rw [taken?_eq_none_of_stem] at hn
  · cases hn
  · rw [stem_opener]
    exact h a b l heq hne _ (lead_mem_marks g)

theorem standsAlone_gap (gap : Gap) : g.opener.StandsAlone gap.1 :=
  standsAlone_of_still fun _ _ _ heq hne => still_of_mem gap.2 heq hne

/-- In the text of a tag that tag opens, and nothing else. -/
theorem standsAlone_text {u : BuiltinTag} {b : List Char} (h : u.Accepts b) :
    g.opener.StandsAlone (u.text b) := by
  intro l a v n heq hne hn
  by_cases hg : a = [] ∧ g = u
  · obtain ⟨rfl, rfl⟩ := hg
    rw [List.nil_append] at heq
    rw [← heq, (reads_text h).taken?] at hn
    rw [← heq, ← Option.some.inj hn]
  · rw [taken?_eq_none_of_stem] at hn
    · cases hn
    · rw [stem_opener]
      intro hlead
      by_cases ha : a = []
      · subst ha
        rw [List.nil_append] at heq
        subst heq
        exact hg ⟨rfl, lead_injective (mark_unique (lead_mem_marks g) (lead_mem_marks u) hlead
          ((lead_prefix_text h).trans (List.prefix_append _ l)))⟩
      · exact still_text h heq ha hne _ (lead_mem_marks g) hlead

end BuiltinTag

/-! ### Tags before and behind the patch -/

namespace TagScanner

variable {text text' : Array Char} {pos pos' : Nat} {t g : BuiltinTag} {P w w' S : List Char}

/-- If a tag opens at a position then one is found, there or before. -/
theorem exists_find?_of_opening? {i : Nat} {x : TagMatch} (hpos : pos ≤ i) (hsize : i ≤ text.size)
    (h : builtin.opening? text i = some x) :
    ∃ m, builtin.find? text pos = some m ∧ m.start ≤ i := by
  -- by induction on what lies before the position
  generalize hn : i - pos = n
  induction n using Nat.strongRecOn generalizing i x with
  | ind n ih =>
      by_cases hbefore : ∀ j, pos ≤ j → j < i → builtin.opening? text j = none
      · have hstart := (start_of_opening? h).1
        subst hstart
        exact ⟨x, (find?_eq_some_iff unified_builtin groupNames_builtin nodup_groups_builtin).mpr
          ⟨hpos, hsize, h, hbefore⟩, Nat.le_refl _⟩
      · simp only [not_forall] at hbefore
        obtain ⟨j, h₁, h₂, hj⟩ := hbefore
        obtain ⟨y, hy⟩ := Option.ne_none_iff_exists'.mp hj
        obtain ⟨m, hm, hle⟩ := ih (j - pos) (by omega) h₁ (by omega) hy rfl
        exact ⟨m, hm, by omega⟩

/-- The closing tag that a search ends with is one that its pattern finds. -/
theorem exists_find?_of_balance {opener closer : Pattern} {skip : Nat → Nat → Option Nat}
    {depth first last : Nat} (h : balance opener closer skip text depth pos = some (first, last)) :
    ∃ i m, closer.find? text i = some m ∧ m.start = first ∧ m.stop = last := by
  fun_induction balance opener closer skip text depth pos with
  | case1 | case3 | case5 | case8 => cases h
  | case2 _ _ _ _ _ _ _ _ _ ih | case4 _ _ _ _ _ _ _ _ _ _ ih | case7 _ _ _ _ _ _ _ _ _ ih =>
      exact ih h
  | case6 pos close hclose =>
      cases h
      exact ⟨_, close, hclose, rfl, rfl⟩

theorem closing_of_closer? {close stop : Nat}
    (h : builtin.closer? g.matcher text pos = some (close, stop)) :
    ∃ z l, g.closing? = some z ∧ Remains text close (z ++ l) ∧ stop = close + z.length := by
  rw [closer?_eq] at h
  obtain ⟨c, hc, h⟩ := Option.bind_eq_some_iff.mp h
  obtain ⟨z, hz, rfl⟩ := Option.map_eq_some_iff.mp hc
  obtain ⟨i, m, hfind, rfl, rfl⟩ := exists_find?_of_balance h
  obtain ⟨_, hsize, hat, _⟩ := Pattern.find?_eq_some_iff.mp hfind
  have hl : Remains text m.start (text.toList.drop m.start) := ⟨hsize, rfl⟩
  have hat : (seqAll (letters z)).matchAt? text m.start = some ⟨m.stop, m.groups⟩ := hat
  rw [matchAt?_eq_taken? (anchorless_seqAll (anchorless_letters z)) (groupNames_seqAll_letters z) hl,
    taken?_letters] at hat
  split at hat
  · next hprefix =>
    obtain ⟨l, hl'⟩ := hprefix
    have hstop : m.start + z.length = m.stop :=
      congrArg Trail.pos (Option.some.inj hat)
    exact ⟨z, l, hz, hl' ▸ hl, hstop.symm⟩
  · cases hat

/-- A tag that opens before another one is found there as a whole. -/
theorem exists_split_of_opening? {j : Nat} {m : TagMatch} (hreads : t.opener.Reads w)
    (hstops : ∀ g : BuiltinTag, g.opener.StopsIn P (w ++ S))
    (hl : Remains text pos (P ++ (w ++ S))) (hj : j < P.length)
    (h : builtin.opening? text (pos + j) = some m) :
    ∃ (g : BuiltinTag) (a v P₂ : List Char), P = a ++ (v ++ P₂) ∧ g.lead <+: v ++ P₂ ∧
      a.length = j ∧ m = ⟨g.matcher, pos + j, pos + j + v.length⟩ := by
  obtain ⟨matcher, start, stop⟩ := m
  obtain ⟨hstart, hmem, u, hat, hstop⟩ := start_of_opening? h
  dsimp only at hstart hmem hat hstop
  obtain ⟨g, rfl⟩ := mem_matchers_builtin.mp hmem
  have hl' := hl.behind (j := j) (by rw [List.length_append]; omega)
  have hne : P.drop j ≠ [] := by
    rw [Ne, List.drop_eq_nil_iff]
    omega
  rw [List.drop_append_of_le_length (Nat.le_of_lt hj)] at hl'
  rw [opener_matcher, matchAt?_eq_taken? (BuiltinTag.anchorless_opener g) (groupNames_opener g) hl',
    (heeds_opener hreads (hstops g)).before _ _ (List.take_append_drop j P).symm hne] at hat
  obtain ⟨n, hn, rfl⟩ := Option.map_eq_some_iff.mp hat
  have hlead : g.lead <+: P.drop j := by
    by_contra hnot
    rw [taken?_eq_none_of_stem (by rwa [stem_opener])] at hn
    cases hn
  have hsplit : (P.drop j).take n ++ (P.drop j).drop n = P.drop j := List.take_append_drop n _
  refine ⟨g, P.take j, (P.drop j).take n, (P.drop j).drop n, ?_, ?_, ?_, ?_⟩
  · rw [hsplit, List.take_append_drop]
  · rwa [hsplit]
  · exact List.length_take_of_le (Nat.le_of_lt hj)
  · rw [List.length_take_of_le (taken?_le hn), hstart, ← hstop]

/-- A closing tag that begins before another tag, or with it, stands before it. -/
theorem exists_drop_of_closing {z l : List Char} {j : Nat} (hreads : t.opener.Reads w)
    (hz : g.closing? = some z) (hl : Remains text pos (P ++ (w ++ S)))
    (hlz : Remains text (pos + j) (z ++ l)) (hj : j ≤ P.length) : ∃ P₂, P.drop j = z ++ P₂ := by
  have hheeds := heeds_closing (P := P) (S := S) hreads hz
  have hl' := hl.behind (j := j) (by rw [List.length_append]; omega)
  have hprefix : z <+: P.drop j ++ (w ++ S) :=
    ⟨l, by rw [← hlz.drop, hl'.drop, List.drop_append_of_le_length hj]⟩
  have hne : P.drop j ≠ [] := by
    intro hnil
    have hhere := hheeds.here
    rw [hnil, List.nil_append] at hprefix
    rw [taken?_letters, if_pos hprefix] at hhere
    cases hhere
  have hbefore := hheeds.before _ _ (List.take_append_drop j P).symm hne
  rw [taken?_letters, taken?_letters, if_pos hprefix] at hbefore
  split at hbefore
  · next hP =>
    obtain ⟨P₂, hP₂⟩ := hP
    exact ⟨P₂, hP₂.symm⟩
  · cases hbefore

section patch
variable (hx : Exchange t P S w w') (hl : Remains text pos (P ++ (w ++ S)))
  (hl' : Remains text' pos' (P ++ (w' ++ S)))
include hx hl hl'

/-- The first tag that is found stands in `P` and is found in both texts, or it is the tag that the
texts differ in. -/
theorem find?_patch :
    (∃ (g : BuiltinTag) (a v P₂ : List Char), P = a ++ (v ++ P₂) ∧ g.lead <+: v ++ P₂ ∧
      builtin.find? text pos =
        some ⟨g.matcher, pos + a.length, pos + a.length + v.length⟩ ∧
      builtin.find? text' pos' =
        some ⟨g.matcher, pos' + a.length, pos' + a.length + v.length⟩) ∨
    builtin.find? text pos =
        some ⟨t.matcher, pos + P.length, pos + P.length + w.length⟩ ∧
      builtin.find? text' pos' =
        some ⟨t.matcher, pos' + P.length, pos' + P.length + w'.length⟩ := by
  have hw := List.length_pos_iff.mpr (ne_nil_of_reads hx.reads)
  have hw' := List.length_pos_iff.mpr (ne_nil_of_reads hx.reads')
  have hopens := opening?_of_matchAt? hl.pass (hx.reads.matchAt? (groupNames_opener t) hl.pass)
  obtain ⟨m, hfind, hle⟩ := exists_find?_of_opening? (Nat.le_add_right _ _) hl.pass.le hopens
  obtain ⟨hpos, _, hopening, _⟩ :=
    (find?_eq_some_iff unified_builtin groupNames_builtin nodup_groups_builtin).mp hfind
  obtain ⟨j, hj⟩ := Nat.exists_eq_add_of_le hpos
  have hsize' := hl'.size
  rw [List.length_append] at hsize'
  -- the same tag is found in the second text
  have hstart : (Track.patch pos pos' P.length S.length hw hw').faces m.start (pos' + j) :=
    .inl ⟨j, by omega, hj, rfl⟩
  obtain ⟨⟨_, start', stop'⟩, hfind', rfl, hstart', hstop'⟩ := Track.find?_of_find? hfind
    (Track.faces_patch hw hw') hstart (by omega)
    (fun hi _ _ g => Track.seen_patch hw hw' hl hl' (heeds_opener hx.reads (hx.stops g))
      (heeds_opener hx.reads' (hx.stops' g)) hi)
    fun j' h₁ h₂ => ⟨pos + (j' - pos'), .inl ⟨j' - pos', by omega, rfl, by omega⟩⟩
  dsimp only at hfind' hstart' hstop'
  obtain rfl : start' = pos' + j := by
    rcases hstart' with ⟨_, _, h, h'⟩ | ⟨_, _, h, h'⟩ <;> omega
  rw [hj] at hopening
  rcases Nat.lt_or_ge j P.length with hlt | hge
  · obtain ⟨g, a, v, P₂, hP, hlead, rfl, rfl⟩ :=
      exists_split_of_opening? hx.reads hx.stops hl hlt hopening
    have hlen := congrArg List.length hP
    rw [List.length_append, List.length_append] at hlen
    obtain rfl : stop' = pos' + a.length + v.length := by
      rcases hstop' with ⟨_, _, h, h'⟩ | ⟨_, _, h, h'⟩ <;> dsimp only at h <;> omega
    exact .inl ⟨g, a, v, P₂, hP, hlead, hfind, hfind'⟩
  · obtain rfl : j = P.length := by omega
    rw [hopens] at hopening
    cases hopening
    obtain rfl : stop' = pos' + P.length + w'.length := by
      rcases hstop' with ⟨_, _, h, h'⟩ | ⟨_, _, h, h'⟩ <;> dsimp only at h <;> omega
    exact .inr ⟨hfind, hfind'⟩

/-- The patterns of a block are found alike if its marks do not stand inside the tag. -/
theorem knows_patch {z : List Char} (hw : 0 < w.length) (hw' : 0 < w'.length)
    (hz : g.closing? = some z) (hg : g.AbsentIn w) (hg' : g.AbsentIn w') :
    (Track.patch pos pos' P.length S.length hw hw').Knows text text' g.matcher := by
  obtain ⟨hlead, hclose⟩ := hg z hz
  obtain ⟨hlead', hclose'⟩ := hg' z hz
  refine ⟨(Track.sees_patch hw hw' hl hl' (heeds_opener hx.reads (hx.stops g))
    (heeds_opener hx.reads' (hx.stops' g)) ?_ ?_).alike, fun c hc => ?_⟩
  · rw [stem_opener]
    exact free_tail (lead_mem_marks g) hx.reads hlead
  · rw [stem_opener]
    exact free_tail (lead_mem_marks g) hx.reads' hlead'
  · rw [closer_matcher hz] at hc
    cases hc
    refine (Track.sees_patch hw hw' hl hl' (heeds_closing hx.reads hz)
      (heeds_closing hx.reads' hz) ?_ ?_).alike
    · rw [stem_letters]
      exact free_tail (closing_mem_marks hz) hx.reads hclose
    · rw [stem_letters]
      exact free_tail (closing_mem_marks hz) hx.reads' hclose'

/-- The closing tag of a block around the tag stands in `P` or behind the tag, in both texts. -/
theorem closer?_patch (hg : g.AbsentIn w) (hg' : g.AbsentIn w') {close stop : Nat}
    (h : builtin.closer? g.matcher text pos = some (close, stop)) :
    (∃ b z P₂ : List Char, P = b ++ (z ++ P₂) ∧ close = pos + b.length ∧
      stop = pos + b.length + z.length ∧ builtin.closer? g.matcher text' pos' =
        some (pos' + b.length, pos' + b.length + z.length)) ∨
    ∃ s z S₂ : List Char, S = s ++ (z ++ S₂) ∧ close = pos + (P ++ (w ++ s)).length ∧
      stop = pos + (P ++ (w ++ s)).length + z.length ∧ builtin.closer? g.matcher text' pos' =
        some (pos' + (P ++ (w' ++ s)).length, pos' + (P ++ (w' ++ s)).length + z.length) := by
  have hw := List.length_pos_iff.mpr (ne_nil_of_reads hx.reads)
  have hw' := List.length_pos_iff.mpr (ne_nil_of_reads hx.reads')
  obtain ⟨z, l, hz, hlz, rfl⟩ := closing_of_closer? h
  have hraw : (Track.patch pos pos' P.length S.length hw hw').KnowsRaw builtin text text' := by
    intro m hm hr
    obtain ⟨r, rfl⟩ := mem_matchers_builtin.mp hm
    obtain ⟨y, hy⟩ : ∃ y, r.closing? = some y := by
      cases r with
      | comment | definition => exact ⟨_, rfl⟩
      | _ => cases hr
    exact knows_patch hx hl hl' hw hw' hy (hx.neutral r (.inl hr)) (hx.neutral' r (.inl hr))
  have hrel := Track.closer? (fun _ hm hb _ _ _ => advances_builtin.opener hm hb)
    (fun _ hm _ hc _ _ _ => advances_builtin.closer hm hc) hraw
    (mem_matchers_builtin.mpr ⟨g, rfl⟩) (knows_patch hx hl hl' hw hw' hz hg hg')
    (Track.faces_patch hw hw')
  rw [h] at hrel
  generalize hclose' : builtin.closer? g.matcher text' pos' = r' at hrel
  cases hrel with
  | @some _ r' hr =>
      obtain ⟨close', stop'⟩ := r'
      obtain ⟨y, l', hy, hly, rfl⟩ := closing_of_closer? hclose'
      obtain rfl : z = y := Option.some.inj (hz.symm.trans hy)
      rcases hr.1 with ⟨j, hj, hcj, hcj'⟩ | ⟨j, hj, hcj, hcj'⟩
      · dsimp only at hcj hcj'
        subst hcj hcj'
        obtain ⟨P₂, hP₂⟩ := exists_drop_of_closing hx.reads hz hl hlz hj
        have hlen : (P.take j).length = j := List.length_take_of_le hj
        refine .inl ⟨P.take j, z, P₂, by rw [← hP₂, List.take_append_drop], ?_, ?_, ?_⟩
        all_goals rw [hlen]
      · dsimp only at hcj hcj'
        subst hcj hcj'
        have hlen : (S.take j).length = j := List.length_take_of_le hj
        refine .inr ⟨S.take j, z, l, ?_, ?_, ?_, ?_⟩
        · rw [← hlz.drop, (hl.pass.pass.behind hj).drop, List.take_append_drop]
        all_goals simp only [List.length_append, hlen, Nat.add_assoc]

end patch

end TagScanner

end TagTemplate
