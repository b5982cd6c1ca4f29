import TagTemplate.Proofs.Pattern.Emptiness
import TagTemplate.Proofs.Pattern.Reading

/-! # Patterns seen through a window

A pattern without conditions on places looks at nothing but the characters that it passes.  So it
behaves alike in two texts, at places of both, as long as it stays in a part that the texts have in
common there.

* `Related`: two continuations that are related in a window, and to failures behind it.
* `search_window`: backtracking in two texts that have a window in common.
* `matchAt?_extract`: what a pattern has matched is matched whole, taken alone.
* `matchAt?_eq_taken?`: what remains of a text decides how many characters a pattern takes. -/

namespace TagTemplate

namespace Pattern

/-- The pattern sets no conditions on places. -/
def Anchorless : Pattern → Prop
  | place _ => False
  | seq a b | alt a b => Anchorless a ∧ Anchorless b
  | star _ a | group _ a => Anchorless a
  | empty | char _ => True

/-- Instance that makes the condition computable. -/
instance decidableAnchorless : (p : Pattern) → Decidable p.Anchorless
  | place _ => inferInstanceAs (Decidable False)
  | seq a b => @instDecidableAnd _ _ (decidableAnchorless a) (decidableAnchorless b)
  | alt a b => @instDecidableAnd _ _ (decidableAnchorless a) (decidableAnchorless b)
  | star _ a => decidableAnchorless a
  | group _ a => decidableAnchorless a
  | empty => inferInstanceAs (Decidable True)
  | char _ => inferInstanceAs (Decidable True)

theorem Anchorless.steady : ∀ {p : Pattern}, p.Anchorless → p.Steady
  | empty, _ => trivial
  | char _, _ => trivial
  | seq _ _, ⟨ha, hb⟩ => ⟨ha.steady, hb.steady⟩
  | alt _ _, ⟨ha, hb⟩ => ⟨ha.steady, hb.steady⟩
  | star _ a, h => Anchorless.steady (p := a) h
  | group _ a, h => Anchorless.steady (p := a) h

theorem anchorless_seqAll : ∀ {ps : List Pattern}, (∀ p ∈ ps, p.Anchorless) → (seqAll ps).Anchorless
  | [], _ => trivial
  | [p], h => h p List.mem_cons_self
  | p :: _ :: _, h =>
      ⟨h p List.mem_cons_self, anchorless_seqAll fun r hr => h r (List.mem_cons_of_mem p hr)⟩

theorem anchorless_letters (w : List Char) : ∀ p ∈ letters w, p.Anchorless := by
  intro p hp
  obtain ⟨c, _, rfl⟩ := List.mem_map.mp hp
  exact trivial

variable {α β : Type}

/-! ### What holds of all successes -/

/-- The property holds of a failure, and of the first success of two attempts if it holds of
both. -/
structure Lasting (P : Option α → Prop) : Prop where
  fail : P none
  or {o p : Option α} (ho : P o) (hp : P p) : P (o.or p)

/-- What holds of a failure, and of the continuation behind a character, holds of a class. -/
theorem search_char_of_next {P : Option α → Prop} (hfail : P none) {text : Array Char}
    {cs : CharClass} {pos : Nat} {k : Nat → Option α} (h : pos < text.size → P (k (pos + 1))) :
    P (search text (char cs) pos k) := by
  rw [search]
  cases hc : text[pos]? with
  | none => exact hfail
  | some c =>
      obtain ⟨hlt, _⟩ := Array.getElem?_eq_some_iff.mp hc
      dsimp only
      split
      · exact h hlt
      · exact hfail

/-- What holds of a continuation at all places ahead holds of backtracking. -/
theorem search_of_all {P : Option α → Prop} (hP : Lasting P) {text : Array Char} (p : Pattern) :
    ∀ {pos : Nat} {k : Nat → Option α}, pos ≤ text.size →
      (∀ m, pos ≤ m → m ≤ text.size → P (k m)) → P (search text p pos k) := by
  induction p with
  | empty => exact fun hpos hk => hk _ (Nat.le_refl _) hpos
  | char cs =>
      intro pos k _ hk
      exact search_char_of_next hP.fail fun hlt => hk _ (Nat.le_succ _) hlt
  | place q =>
      intro pos k hpos hk
      rw [search]
      split
      · exact hk _ (Nat.le_refl _) hpos
      · exact hP.fail
  | seq a b iha ihb =>
      intro pos k hpos hk
      exact iha hpos fun m hm hsize => ihb hsize fun n hn => hk n (Nat.le_trans hm hn)
  | alt a b iha ihb =>
      intro pos k hpos hk
      exact hP.or (iha hpos hk) (ihb hpos hk)
  | group name a iha => exact iha
  | star greedy a iha =>
      intro pos k hpos hk
      rw [search]
      -- by induction on what is left of the text
      generalize hn : text.size - pos = n
      induction n using Nat.strongRecOn generalizing pos with
      | ind n ih =>
          have hagain : P (search text a pos (resume text.size (search text a) greedy k pos)) := by
            refine iha hpos fun m hm hsize => ?_
            unfold resume
            split
            · next hlt =>
              exact ih _ (by omega) hsize (fun j hj => hk j (Nat.le_trans hm hj)) rfl
            · exact hk m hm hsize
          have hstop := hk pos (Nat.le_refl _) hpos
          rw [searchStar_eq]
          split
          · exact hP.or hagain hstop
          · exact hP.or hstop hagain

/-! ### Windows -/

/-- The texts have the same `n` characters from `a` on in the first one, and from `b` on in the
second one. -/
structure Window (text text' : Array Char) (a b n : Nat) : Prop where
  same {i : Nat} (h : i < n) : text[a + i]? = text'[b + i]?
  le : a + n ≤ text.size
  le' : b + n ≤ text'.size

/-- The relation holds between failures, and between the first successes of two attempts if it holds
between the attempts. -/
structure Joint (R : Option α → Option β → Prop) : Prop where
  fail : R none none
  or {o p : Option α} {o' p' : Option β} (ho : R o o') (hp : R p p') : R (o.or p) (o'.or p')

namespace Joint

variable {R : Option α → Option β → Prop} (hR : Joint R)
include hR

theorem left : Lasting fun o => R o none :=
  ⟨hR.fail, fun ho hp => hR.or ho hp⟩

theorem right : Lasting fun o => R none o :=
  ⟨hR.fail, fun ho hp => hR.or ho hp⟩

theorem of_failures {o : Option α} {o' : Option β} (ho : R o none) (ho' : R none o') : R o o' := by
  have h := hR.or ho ho'
  rwa [Option.or_none, Option.none_or] at h

end Joint

/-- Two continuations that are related in the window, from `i` on, and related to failures behind
it. -/
structure Related (text text' : Array Char) (a b n : Nat) (R : Option α → Option β → Prop) (i : Nat)
    (k : Nat → Option α) (k' : Nat → Option β) : Prop where
  inside {j : Nat} (h : i ≤ j) (hn : j ≤ n) : R (k (a + j)) (k' (b + j))
  behind {m : Nat} (h : a + n < m) (hsize : m ≤ text.size) : R (k m) none
  behind' {m : Nat} (h : b + n < m) (hsize : m ≤ text'.size) : R none (k' m)

section window
variable {text text' : Array Char} {a b n i : Nat} {R : Option α → Option β → Prop}
  {k : Nat → Option α} {k' : Nat → Option β}

/-- Continuations related from some place of the window on are so from later places on. -/
theorem Related.later (h : Related text text' a b n R i k k') {j : Nat} (hij : i ≤ j) :
    Related text text' a b n R j k k' :=
  ⟨fun hj hn => h.inside (Nat.le_trans hij hj) hn, h.behind, h.behind'⟩

variable (hR : Joint R)
include hR

/-- Behind the window all that a pattern leads to is related to failures. -/
theorem Related.search_behind (p : Pattern) (h : Related text text' a b n R i k k') {m : Nat}
    (hm : a + n < m) (hsize : m ≤ text.size) : R (search text p m k) none :=
  search_of_all hR.left p hsize fun _ hl => h.behind (Nat.lt_of_lt_of_le hm hl)

theorem Related.search_behind' (p : Pattern) (h : Related text text' a b n R i k k') {m : Nat}
    (hm : b + n < m) (hsize : m ≤ text'.size) : R none (search text' p m k') :=
  search_of_all hR.right p hsize fun _ hl => h.behind' (Nat.lt_of_lt_of_le hm hl)

variable (hw : Window text text' a b n)
include hw

/-- A class sees the same character in the window, and none counts behind it. -/
theorem search_char_window (cs : CharClass) (hi : i ≤ n) (h : Related text text' a b n R i k k') :
    R (search text (char cs) (a + i) k) (search text' (char cs) (b + i) k') := by
  rcases Nat.lt_or_eq_of_le hi with hlt | rfl
  · rw [search, search, hw.same hlt]
    cases text'[b + i]? with
    | none => exact hR.fail
    | some c =>
        dsimp only
        split
        · exact h.inside (Nat.le_succ _) hlt
        · exact hR.fail
  · -- the window ends here, and what a step leads to lies behind it
    exact hR.of_failures
      (search_char_of_next (P := (R · none)) hR.fail fun hlt => h.behind (Nat.lt_succ_self _) hlt)
      (search_char_of_next hR.fail fun hlt => h.behind' (Nat.lt_succ_self _) hlt)

theorem searchStar_window {q : Pattern} (greedy : Bool)
    (hstep : ∀ {k : Nat → Option α} {k' : Nat → Option β} {i : Nat}, i ≤ n →
      Related text text' a b n R i k k' →
        R (search text q (a + i) k) (search text' q (b + i) k'))
    (hi : i ≤ n) (h : Related text text' a b n R i k k') :
    R (search text (star greedy q) (a + i) k) (search text' (star greedy q) (b + i) k') := by
  have hle := hw.le
  have hle' := hw.le'
  -- by induction on what is left of the window
  generalize hrest : n - i = rest
  induction rest using Nat.strongRecOn generalizing i with
  | ind rest ih =>
      have hresume : Related text text' a b n R i
          (resume text.size (search text q) greedy k (a + i))
          (resume text'.size (search text' q) greedy k' (b + i)) := by
        refine ⟨fun {j} hj hjn => ?_, fun {m} hm hsize => ?_, fun {m} hm hsize => ?_⟩
        · unfold resume
          rcases Nat.lt_or_eq_of_le hj with hlt | rfl
          · rw [if_pos ⟨by omega, by omega⟩, if_pos ⟨by omega, by omega⟩]
            exact ih _ (by omega) hjn (h.later hj) rfl
          · rw [if_neg (by omega), if_neg (by omega)]
            exact h.inside (Nat.le_refl _) hi
        · unfold resume
          split
          · exact h.search_behind hR (star greedy q) hm hsize
          · exact h.behind hm hsize
        · unfold resume
          split
          · exact h.search_behind' hR (star greedy q) hm hsize
          · exact h.behind' hm hsize
      have hagain := hstep hi hresume
      have hstop := h.inside (Nat.le_refl _) hi
      rw [search, search, searchStar_eq, searchStar_eq]
      split
      · exact hR.or hagain hstop
      · exact hR.or hstop hagain

/-- Related continuations, and a relation between failures and all successes behind the window, make
backtracking related in the window. -/
theorem search_window {p : Pattern} (hp : p.Anchorless) :
    ∀ {k : Nat → Option α} {k' : Nat → Option β} {i : Nat}, i ≤ n →
      Related text text' a b n R i k k' →
        R (search text p (a + i) k) (search text' p (b + i) k') := by
  induction p with
  | empty => exact fun {k k' i} hi h => h.inside (Nat.le_refl _) hi
  | place q => exact fun {k k' i} => absurd hp id
  | group name q ih => exact fun {k k' i} => ih hp
  | char cs => exact fun {k k' i} => search_char_window hR hw cs
  | seq q r ihq ihr =>
      intro k k' i hi h
      exact ihq hp.1 hi ⟨fun hj hjn => ihr hp.2 hjn (h.later hj), h.search_behind hR r,
        h.search_behind' hR r⟩
  | alt q r ihq ihr =>
      intro k k' i hi h
      exact hR.or (ihq hp.1 hi h) (ihr hp.2 hi h)
  | star greedy q ihq => exact fun {k k' i} => searchStar_window hR hw greedy (ihq hp)

end window

/-! ### Matches taken alone -/

/-- If the first attempt succeeds with `b` then so does the second one with `b'`; if it fails, so
does the second one. -/
def Follows (b : α) (b' : β) (o : Option α) (o' : Option β) : Prop :=
  (o = some b → o' = some b') ∧ (o = none → o' = none)

theorem joint_follows (b : α) (b' : β) : Joint (Follows b b') := by
  refine ⟨⟨nofun, fun _ => rfl⟩, fun {o p o' p'} ho hp => ⟨fun h => ?_, fun h => ?_⟩⟩
  · cases o with
    | some x => rw [ho.1 h, Option.some_or]
    | none => rw [ho.2 rfl, Option.none_or, hp.1 (Option.none_or.symm.trans h)]
  · obtain ⟨h₁, h₂⟩ := Option.or_eq_none_iff.mp h
    rw [ho.2 h₁, hp.2 h₂, Option.or_none]

theorem matchAt?_extract {p : Pattern} (hp : p.Anchorless) (hg : p.groupNames = [])
    {text : Array Char} {pos : Nat} {t : Trail} (hpos : pos ≤ text.size)
    (h : p.matchAt? text pos = some t) :
    p.matchAt? (text.extract pos t.pos) 0 = some ⟨t.pos - pos, []⟩ := by
  have hends := ends_of_matchAt? hpos h
  have hle : pos ≤ t.pos := hends.le
  have hsize : (text.extract pos t.pos).size = t.pos - pos := by
    rw [Array.size_extract, Nat.min_eq_left hends.le_size]
  have hw : Window text (text.extract pos t.pos) pos 0 (t.pos - pos) := by
    refine ⟨fun {i} hi => ?_, by have := hends.le_size; omega, by omega⟩
    rw [Array.getElem?_extract, Nat.zero_add, Nat.min_eq_left hends.le_size, if_pos hi]
  have hsearch := ((matchAt?_eq_some_iff hg hpos).mp h).1
  have hfollows : Follows t.pos (t.pos - pos) (search text p (pos + 0) some)
      (search (text.extract pos t.pos) p (0 + 0) some) := by
    refine search_window (joint_follows _ _) hw hp (Nat.zero_le _)
      ⟨fun {j} _ hj => ?_, fun {m} hm _ => ?_, fun {m} hm hm' => by omega⟩
    · exact ⟨fun heq => congrArg some (by have := Option.some.inj heq; omega), nofun⟩
    · exact ⟨fun heq => absurd (Option.some.inj heq) (by omega), nofun⟩
  exact (matchAt?_eq_some_iff hg (Nat.zero_le _)).mpr ⟨hfollows.1 hsearch, rfl⟩

/-! ### What remains decides -/

/-- The number of characters that the pattern takes at the beginning of a text. -/
def taken? (p : Pattern) (l : List Char) : Option Nat :=
  search l.toArray p 0 some

theorem joint_shifted (n : Nat) : Joint fun o o' : Option Nat => o = o'.map (n + ·) :=
  ⟨rfl, fun ho hp => by rw [ho, hp, Option.map_or]⟩

section remains
variable {text : Array Char} {pos : Nat} {l : List Char} {p : Pattern}

/-- What remains of a text decides what a pattern takes. -/
theorem search_eq_taken? (hp : p.Anchorless) (hl : Remains text pos l) :
    search text p pos some = (p.taken? l).map (pos + ·) := by
  have hsize := hl.size
  have hw : Window text l.toArray pos 0 l.length := by
    refine ⟨fun {i} _ => ?_, by omega, by simp⟩
    rw [hl.getElem?, Nat.zero_add, List.getElem?_toArray]
  refine search_window (joint_shifted pos) hw hp (Nat.zero_le _)
    ⟨fun {j} _ _ => ?_, fun {m} hm hsize' => by omega, fun {m} hm hsize' => ?_⟩
  · rw [Nat.zero_add]
    rfl
  · rw [List.size_toArray] at hsize'
    omega

theorem matchAt?_eq_taken? (hp : p.Anchorless) (hg : p.groupNames = []) (hl : Remains text pos l) :
    p.matchAt? text pos = (p.taken? l).map fun n => ⟨pos + n, []⟩ := by
  refine Option.ext fun t => ?_
  rw [matchAt?_eq_some_iff hg hl.le, search_eq_taken? hp hl]
  cases p.taken? l with
  | none => simp
  | some n =>
      obtain ⟨stop, groups⟩ := t
      simp [eq_comm]

theorem taken?_le {n : Nat} (h : p.taken? l = some n) : n ≤ l.length := by
  obtain ⟨m, hle, hsize, hm⟩ := exists_of_search (Nat.zero_le _) h
  cases hm
  simpa using hsize

end remains

end Pattern

end TagTemplate
