import TagTemplate.Proofs.Document.Coupling
import TagTemplate.Proofs.Document.Tiling
import TagTemplate.Proofs.Pattern.Windows
import TagTemplate.Proofs.Scanning.Builtin
import TagTemplate.Proofs.Scanning.Tracks
import TagTemplate.Proofs.Scanning.Yields

/-! # Reading the same text elsewhere

The known tags set no conditions on places, so what is read from a position on depends on what
remains of the text there, and on nothing before it.

* `Track.Sees.alike`: a pattern that matches alike at corresponding places is found alike.
* `Yields.shift`: what remains of a text is read in the same way wherever it stands. -/

namespace TagTemplate

open Pattern BuiltinTag

namespace Part

theorem placelessAll_append (ps qs : List Part) :
    placelessAll (ps ++ qs) = placelessAll ps ++ placelessAll qs := by
  induction ps with
  | nil => rfl
  | cons p ps ih => rw [List.cons_append, placelessAll, ih, placelessAll, List.cons_append]

end Part

theorem Remains.behind {text : Array Char} {pos j : Nat} {l : List Char} (hl : Remains text pos l)
    (hj : j ≤ l.length) : Remains text (pos + j) (l.drop j) := by
  rw [← List.take_append_drop j l] at hl
  have h := hl.pass
  rwa [List.length_take_of_le hj] at h

theorem BuiltinTag.anchorless_opener (t : BuiltinTag) : t.opener.Anchorless := by
  cases t <;> decide

namespace Track

/-! ### Patterns at corresponding places -/

/-- The first success from corresponding positions on is at corresponding places: nothing comes
before it in the second text either. -/
theorem none_before {α : Type} {k : Track} {f f' : Nat → Option α} {R : α → α → Prop}
    {pos pos' i i' : Nat} (hpos : k.faces pos pos') (hi : k.faces i i')
    (hseen : ∀ {j j'}, k.faces j j' → pos ≤ j → j < i → Option.Rel R (f j) (f' j'))
    (hright : ∀ j', pos' ≤ j' → j' < i' → (∃ j, k.faces j j') ∨ f' j' = none)
    (hnone : ∀ j, pos ≤ j → j < i → f j = none) : ∀ j', pos' ≤ j' → j' < i' → f' j' = none := by
  intro j' h₁ h₂
  rcases hright j' h₁ h₂ with ⟨j, hj⟩ | h
  · have hle : pos ≤ j := Nat.le_of_not_lt (mt (k.lt_iff hj hpos).mp (Nat.not_lt.mpr h₁))
    have hlt : j < i := (k.lt_iff hj hi).mpr h₂
    have hrel := hseen hj hle hlt
    rw [hnone j hle hlt] at hrel
    generalize f' j' = o at hrel
    cases hrel
    rfl
  · exact h

/-- A pattern matches alike at corresponding places, and nowhere else. -/
structure Sees (k : Track) (text text' : Array Char) (p : Pattern) : Prop where
  le {i i' : Nat} (h : k.faces i i') : i ≤ text.size ∧ i' ≤ text'.size
  seen {i i' : Nat} (h : k.faces i i') :
    Option.Rel (fun u u' : Trail => k.faces u.pos u'.pos) (p.matchAt? text i)
      (p.matchAt? text' i')
  left {pos pos' i : Nat} (h : k.faces pos pos') (hi : pos ≤ i) (hsize : i ≤ text.size) :
    (∃ i', k.faces i i') ∨ p.matchAt? text i = none
  right {pos pos' i' : Nat} (h : k.faces pos pos') (hi : pos' ≤ i') (hsize : i' ≤ text'.size) :
    (∃ i, k.faces i i') ∨ p.matchAt? text' i' = none

/-- A pattern that matches alike at corresponding places is found alike. -/
theorem Sees.alike {k : Track} {text text' : Array Char} {p : Pattern}
    (h : k.Sees text text' p) : k.Alike text text' p := by
  intro pos pos' hpos
  cases hfind : p.find? text pos with
  | none =>
      have hnone := find?_eq_none_iff.mp hfind
      have hnone' : p.find? text' pos' = none := by
        refine find?_eq_none_iff.mpr fun i' h₁ h₂ => ?_
        rcases h.right hpos h₁ h₂ with ⟨i, hi⟩ | hright
        · have hle : pos ≤ i :=
            Nat.le_of_not_lt (mt (k.lt_iff hi hpos).mp (Nat.not_lt.mpr h₁))
          have hrel := h.seen hi
          rw [hnone i hle (h.le hi).1] at hrel
          generalize p.matchAt? text' i' = o at hrel
          cases hrel
          rfl
        · exact hright
      rw [hnone']
      exact .none
  | some m =>
      obtain ⟨hle, hsize, hat, hbefore⟩ := find?_eq_some_iff.mp hfind
      rcases h.left hpos hle hsize with ⟨i', hi⟩ | hleft
      · have hrel := h.seen hi
        rw [hat] at hrel
        generalize hat' : p.matchAt? text' i' = o at hrel
        cases hrel with
        | @some _ u hu =>
            have hle' : pos' ≤ i' :=
              Nat.le_of_not_lt (mt (k.lt_iff hi hpos).mpr (Nat.not_lt.mpr hle))
            have hbefore' := none_before hpos hi (fun hj _ _ => h.seen hj)
              (fun j' h₁ h₂ => h.right hpos h₁ (Nat.le_trans (Nat.le_of_lt h₂) (h.le hi).2)) hbefore
            have hfind' : p.find? text' pos' = some ⟨i', u.pos, u.groups⟩ :=
              find?_eq_some_iff.mpr ⟨hle', (h.le hi).2, hat', hbefore'⟩
            rw [hfind']
            exact .some ⟨hi, hu⟩
      · rw [hat] at hleft
        cases hleft

/-- Two tags of one kind that are found at corresponding places. -/
structure Found (k : Track) (m m' : TagMatch) : Prop where
  matcher : m'.matcher = m.matcher
  start : k.faces m.start m'.start
  stop : k.faces m.stop m'.stop

section find
variable {k : Track} {text text' : Array Char} {pos pos' : Nat}

/-- The same tag opens at two corresponding positions, or none does. -/
theorem opening? {i i' : Nat} (hi : k.faces i i') (hseen : ∀ g : BuiltinTag,
    Option.Rel (fun u u' : Trail => k.faces u.pos u'.pos) (g.opener.matchAt? text i)
      (g.opener.matchAt? text' i')) :
    Option.Rel k.Found (TagScanner.builtin.opening? text i)
      (TagScanner.builtin.opening? text' i') := by
  unfold TagScanner.opening? TagScanner.builtin
  generalize all = ts
  induction ts with
  | nil => exact .none
  | cons g ts ih =>
      rw [List.map_cons, List.findSome?_cons, List.findSome?_cons, opener_matcher]
      have hg := hseen g
      generalize g.opener.matchAt? text i = u, g.opener.matchAt? text' i' = u' at hg
      cases hg with
      | none => exact ih
      | some hu => exact .some ⟨rfl, hi, hu⟩

theorem find?_of_find? {m : TagMatch} (hfind : TagScanner.builtin.find? text pos = some m)
    {i' : Nat} (hpos : k.faces pos pos') (hi : k.faces m.start i') (hsize : i' ≤ text'.size)
    (hseen : ∀ {j j'}, k.faces j j' → pos ≤ j → j ≤ m.start → ∀ g : BuiltinTag,
      Option.Rel (fun u u' : Trail => k.faces u.pos u'.pos) (g.opener.matchAt? text j)
        (g.opener.matchAt? text' j'))
    (hright : ∀ j', pos' ≤ j' → j' < i' → ∃ j, k.faces j j') :
    ∃ m', TagScanner.builtin.find? text' pos' = some m' ∧ k.Found m m' := by
  have hiff {text : Array Char} {pos : Nat} {m : TagMatch} :
      TagScanner.builtin.find? text pos = some m ↔ pos ≤ m.start ∧ m.start ≤ text.size ∧
        TagScanner.builtin.opening? text m.start = some m ∧
        ∀ i, pos ≤ i → i < m.start → TagScanner.builtin.opening? text i = none :=
    TagScanner.find?_eq_some_iff TagScanner.unified_builtin TagScanner.groupNames_builtin
      TagScanner.nodup_groups_builtin
  obtain ⟨hle, _, hopening, hbefore⟩ := hiff.mp hfind
  have hrel := opening? hi (hseen hi hle (Nat.le_refl _))
  rw [hopening] at hrel
  generalize hopening' : TagScanner.builtin.opening? text' i' = o at hrel
  cases hrel with
  | @some _ m' hm =>
      have hstart : m'.start = i' := (TagScanner.start_of_opening? hopening').1
      have hle' : pos' ≤ i' :=
        Nat.le_of_not_lt (mt (k.lt_iff hi hpos).mpr (Nat.not_lt.mpr hle))
      have hbefore' := none_before hpos hi
        (fun hj h₁ h₂ => opening? hj (hseen hj h₁ (Nat.le_of_lt h₂)))
        (fun j' h₁ h₂ => .inl (hright j' h₁ h₂)) hbefore
      subst hstart
      exact ⟨m', hiff.mpr ⟨hle', hsize, hopening', hbefore'⟩, hm⟩

end find

/-! ### The track of a shift -/

/-- Positions at the same distance from two positions, at most `n` characters behind them. -/
def shift (pos pos' n : Nat) : Track where
  faces i i' := ∃ j ≤ n, i = pos + j ∧ i' = pos' + j
  lt_iff := by
    rintro i i' j j' ⟨a, _, rfl, rfl⟩ ⟨b, _, rfl, rfl⟩
    omega

theorem faces_shift (pos pos' n : Nat) : (shift pos pos' n).faces pos pos' :=
  ⟨0, Nat.zero_le n, rfl, rfl⟩

section shift
variable {text text' : Array Char} {pos pos' : Nat} {l : List Char}
  (hl : Remains text pos l) (hl' : Remains text' pos' l)
include hl hl'

theorem remains_shift {i i' : Nat} (h : (shift pos pos' l.length).faces i i') :
    ∃ l', Remains text i l' ∧ Remains text' i' l' := by
  obtain ⟨j, hj, rfl, rfl⟩ := h
  exact ⟨l.drop j, hl.behind hj, hl'.behind hj⟩

/-- A pattern without conditions on places matches alike where the same text remains. -/
theorem seen_shift {p : Pattern} (hp : p.Anchorless) (hg : p.groupNames = []) {i i' : Nat}
    (h : (shift pos pos' l.length).faces i i') :
    Option.Rel (fun u u' : Trail => (shift pos pos' l.length).faces u.pos u'.pos)
      (p.matchAt? text i) (p.matchAt? text' i') := by
  obtain ⟨j, hj, rfl, rfl⟩ := h
  rw [matchAt?_eq_taken? hp hg (hl.behind hj), matchAt?_eq_taken? hp hg (hl'.behind hj)]
  cases htaken : p.taken? (l.drop j) with
  | none => exact .none
  | some n =>
      have hn := taken?_le htaken
      rw [List.length_drop] at hn
      exact .some ⟨j + n, by omega, Nat.add_assoc _ _ _, Nat.add_assoc _ _ _⟩

theorem sees_shift {p : Pattern} (hp : p.Anchorless) (hg : p.groupNames = []) :
    (shift pos pos' l.length).Sees text text' p where
  le {i i'} h := by
    obtain ⟨j, hj, rfl, rfl⟩ := h
    have := hl.size
    have := hl'.size
    omega
  seen h := seen_shift hl hl' hp hg h
  left {q q' i} h hi hsize := by
    obtain ⟨j, hj, rfl, rfl⟩ := h
    have := hl.size
    exact .inl ⟨pos' + (i - pos), i - pos, by omega, by omega, rfl⟩
  right {q q' i'} h hi hsize := by
    obtain ⟨j, hj, rfl, rfl⟩ := h
    have := hl'.size
    exact .inl ⟨pos + (i' - pos'), i' - pos', by omega, rfl, by omega⟩

theorem sees_opener (g : BuiltinTag) : (shift pos pos' l.length).Sees text text' g.opener :=
  sees_shift hl hl' (anchorless_opener g) (groupNames_opener g)

theorem sees_letters (w : List Char) :
    (shift pos pos' l.length).Sees text text' (seqAll (letters w)) :=
  sees_shift hl hl' (anchorless_seqAll (anchorless_letters w)) (groupNames_seqAll_letters w)

theorem knows_shift (g : BuiltinTag) : (shift pos pos' l.length).Knows text text' g.matcher := by
  refine ⟨(sees_opener hl hl' g).alike, fun c hc => ?_⟩
  obtain ⟨w, _, rfl⟩ := Option.map_eq_some_iff.mp hc
  exact (sees_letters hl hl' w).alike

theorem find?_shift_of_some {m : TagMatch} (hfind : TagScanner.builtin.find? text pos = some m) :
    ∃ m', TagScanner.builtin.find? text' pos' = some m' ∧ (shift pos pos' l.length).Found m m' := by
  have hm := TagScanner.advances_builtin.find hfind
  have hsize := hl.size
  have hsize' := hl'.size
  refine find?_of_find? hfind (faces_shift _ _ _)
    ⟨m.start - pos, by omega, by omega, rfl⟩ (by omega)
    (fun hj _ _ g => (sees_opener hl hl' g).seen hj) fun j' h₁ h₂ => ?_
  exact ⟨pos + (j' - pos'), j' - pos', by omega, rfl, by omega⟩

theorem find?_shift : Option.Rel (shift pos pos' l.length).Found (TagScanner.builtin.find? text pos)
    (TagScanner.builtin.find? text' pos') := by
  cases hfind : TagScanner.builtin.find? text pos with
  | some m =>
      obtain ⟨m', hfind', hfound⟩ := find?_shift_of_some hl hl' hfind
      rw [hfind']
      exact .some hfound
  | none =>
      cases hfind' : TagScanner.builtin.find? text' pos' with
      | none => exact .none
      | some m' =>
          obtain ⟨m, hm, _⟩ := find?_shift_of_some hl' hl hfind'
          rw [hfind] at hm
          cases hm

theorem closer?_shift (g : BuiltinTag) {i i' : Nat} (hi : (shift pos pos' l.length).faces i i') :
    Option.Rel (shift pos pos' l.length).Closers (TagScanner.builtin.closer? g.matcher text i)
      (TagScanner.builtin.closer? g.matcher text' i') := by
  refine closer? (fun _ hm hb _ _ _ => TagScanner.advances_builtin.opener hm hb)
    (fun _ hm _ hc _ _ _ => TagScanner.advances_builtin.closer hm hc) (fun m hm _ => ?_)
    (TagScanner.mem_matchers_builtin.mpr ⟨g, rfl⟩) (knows_shift hl hl' g) hi
  obtain ⟨r, rfl⟩ := TagScanner.mem_matchers_builtin.mp hm
  exact knows_shift hl hl' r

end shift

end Track

/-! ### Reading -/

namespace TagScanner

open TagTemplate.Part

theorem placelessAll_literalPart {base a b : Nat} {text : Array Char} (h : b ≤ text.size) :
    placelessAll (literalPart base text a b) =
      if slice text a b = [] then [] else [.literal (.ofList (slice text a b)) ⟨0, 0⟩] := by
  rw [literalPart]
  by_cases hab : a < b
  · rw [if_pos hab, if_neg (slice_ne_nil hab h)]
    rfl
  · have hnil : slice text a b = [] := by
      rw [← List.length_eq_zero_iff, slice, Array.length_toList, Array.size_extract]
      omega
    rw [if_neg hab, if_pos hnil]
    rfl

section shift
variable {text text' : Array Char} {pos pos' : Nat} {l : List Char}
  (hl : Remains text pos l) (hl' : Remains text' pos' l) {i i' j j' : Nat}
  (hi : (Track.shift pos pos' l.length).faces i i')
  (hj : (Track.shift pos pos' l.length).faces j j')
include hl hl' hi hj

theorem extract_shift : text'.extract i' j' = text.extract i j := by
  obtain ⟨a, _, rfl, rfl⟩ := hi
  obtain ⟨b, _, rfl, rfl⟩ := hj
  refine Array.ext' ?_
  rw [Array.toList_extract, Array.toList_extract, List.extract_eq_take_drop,
    List.extract_eq_take_drop, ← List.drop_drop, ← List.drop_drop, hl.drop, hl'.drop,
    Nat.add_sub_add_left, Nat.add_sub_add_left]

theorem slice_shift : slice text' i' j' = slice text i j :=
  congrArg Array.toList (extract_shift hl hl' hi hj)

theorem literalPart_shift (base base' : Nat) :
    placelessAll (literalPart base' text' i' j') = placelessAll (literalPart base text i j) := by
  rw [placelessAll_literalPart ((Track.sees_letters hl hl' []).le hj).2,
    placelessAll_literalPart ((Track.sees_letters hl hl' []).le hj).1, slice_shift hl hl' hi hj]

end shift

theorem found_shift {text text' : Array Char} {pos pos' : Nat} {l : List Char}
    (hl : Remains text pos l) (hl' : Remains text' pos' l) {m m' : TagMatch}
    (h : (Track.shift pos pos' l.length).Found m m') :
    m'.tag = m.tag ∧ opened text' m' = opened text m ∧
      builtin.foundBody text' m' = builtin.foundBody text m := by
  have htag : m'.tag = m.tag := congrArg TagMatcher.tag h.matcher
  have hopened : opened text' m' = opened text m := slice_shift hl hl' h.start h.stop
  refine ⟨htag, hopened, ?_⟩
  rw [foundBody, foundBody, hopened, htag]

/-- The closing tag of a block that is found at corresponding places. -/
theorem closer?_shift {text text' : Array Char} {pos pos' : Nat} {l : List Char}
    (hl : Remains text pos l) (hl' : Remains text' pos' l) {m m' : TagMatch}
    (hfind : builtin.find? text pos = some m)
    (h : (Track.shift pos pos' l.length).Found m m') {close stop : Nat}
    (hclose : builtin.closer? m.matcher text m.stop = some (close, stop)) :
    ∃ close' stop', builtin.closer? m'.matcher text' m'.stop = some (close', stop') ∧
      (Track.shift pos pos' l.length).faces close close' ∧
      (Track.shift pos pos' l.length).faces stop stop' := by
  obtain ⟨g, hg⟩ := mem_matchers_builtin.mp (mem_matchers hfind)
  have hrel := Track.closer?_shift hl hl' g h.stop
  rw [hg, hclose] at hrel
  rw [h.matcher]
  generalize builtin.closer? m.matcher text' m'.stop = o at hrel
  cases hrel with
  | @some _ r hr => exact ⟨r.1, r.2, rfl, hr⟩

/-- What remains of a text is read in the same way wherever it stands. -/
theorem Yields.shift {base : Nat} {text : Array Char} {pos : Nat} {parts : List Part}
    (h : builtin.Yields base text pos parts) :
    ∀ {base' : Nat} {text' : Array Char} {pos' : Nat} {l : List Char}, Remains text pos l →
      Remains text' pos' l → ∃ parts', builtin.Yields base' text' pos' parts' ∧
        placelessAll parts' = placelessAll parts := by
  induction h with
  | @done base text pos hfind =>
      intro base' text' pos' l hl hl'
      have hrel := Track.find?_shift hl hl'
      rw [hfind] at hrel
      generalize hfind' : builtin.find? text' pos' = o at hrel
      cases hrel
      exact ⟨_, .done hfind', literalPart_shift hl hl' (Track.faces_shift _ _ _)
        ⟨l.length, Nat.le_refl _, hl.size, hl'.size⟩ base base'⟩
  | @leaf base text pos m rest hfind hleaf _ ih =>
      intro base' text' pos' l hl hl'
      obtain ⟨m', hfind', hm⟩ := Track.find?_shift_of_some hl hl' hfind
      obtain ⟨htag, hopened, hbody⟩ := found_shift hl hl' hm
      have hbefore := literalPart_shift hl hl' (Track.faces_shift _ _ _) hm.start base base'
      obtain ⟨l', hrest, hrest'⟩ := Track.remains_shift hl hl' hm.stop
      obtain ⟨rest', hrest, hparts⟩ := ih hrest hrest'
      refine ⟨_, .leaf hfind' (htag ▸ hleaf) hrest, ?_⟩
      simp only [placelessAll_append, placelessAll, placeless, hbefore, hparts, htag, hopened, hbody]
  | @raw base text pos close stop m rest hfind hblock hraw hclose _ ih =>
      intro base' text' pos' l hl hl'
      obtain ⟨m', hfind', hm⟩ := Track.find?_shift_of_some hl hl' hfind
      obtain ⟨htag, _, hbody⟩ := found_shift hl hl' hm
      obtain ⟨close', stop', hclose', hc, hs⟩ := closer?_shift hl hl' hfind hm hclose
      have hbefore := literalPart_shift hl hl' (Track.faces_shift _ _ _) hm.start base base'
      have hinside := slice_shift hl hl' hm.stop hc
      obtain ⟨l', hrest, hrest'⟩ := Track.remains_shift hl hl' hs
      obtain ⟨rest', hrest, hparts⟩ := ih hrest hrest'
      refine ⟨_, .raw hfind' (htag ▸ hblock) (htag ▸ hraw) hclose' hrest, ?_⟩
      simp only [placelessAll_append, placelessAll, placeless, hbefore, hparts, htag, hinside, hbody]
  | @block base text pos close stop m inner rest hfind hblock hraw hclose _ _ ihi ihr =>
      intro base' text' pos' l hl hl'
      obtain ⟨m', hfind', hm⟩ := Track.find?_shift_of_some hl hl' hfind
      obtain ⟨htag, _, hbody⟩ := found_shift hl hl' hm
      obtain ⟨close', stop', hclose', hc, hs⟩ := closer?_shift hl hl' hfind hm hclose
      have hbefore := literalPart_shift hl hl' (Track.faces_shift _ _ _) hm.start base base'
      have hinside := extract_shift hl hl' hm.stop hc
      obtain ⟨l', hrest, hrest'⟩ := Track.remains_shift hl hl' hs
      obtain ⟨rest', hrest, hparts⟩ := ihr hrest hrest'
      -- the inside is the same text, in another place
      have hsame := remains_toArray (text.extract m.stop close).toList
      obtain ⟨inner', hinner, hinner'⟩ := ihi hsame hsame
      rw [Array.toArray_toList, ← hinside] at hinner
      refine ⟨_, .block hfind' (htag ▸ hblock) (htag ▸ hraw) hclose' hinner hrest, ?_⟩
      simp only [placelessAll_append, placelessAll, placeless, hbefore, hparts, htag, hinside, hbody,
        hinner', slice]

end TagScanner

end TagTemplate
