import Mathlib.Logic.Relation
import Mathlib.Tactic.Common
import TagTemplate.Pattern.Reader

/-! # Patterns by backtracking

`search` follows a pattern by backtracking: it tries the ways through the pattern in the order of
preference, and gives each position reached to a continuation until one succeeds.  It needs no
list of the positions reached before.

* `follow_first`: the positions that `follow` reaches, tried in their order, have the success that
  backtracking has.
* `matchAt?_pos`: the end of the preferred match at a position is the first that backtracking
  finds.
* `find?_eq_some_iff`: the match found is at the first place that has one. -/

namespace TagTemplate

/-! ### Positions reached -/

namespace Reach

variable {β : Type} {k : Nat → Option β} {r r' r'' : Reach} {t u : Trail}

/-- The set of positions is that of the trails. -/
def Sound (r : Reach) : Prop :=
  ∀ pos, r.has pos = true ↔ ∃ u ∈ r.trails, u.pos = pos

theorem sound_empty : Sound {} := by
  intro pos
  simp [has]

theorem Sound.add (h : r.Sound) (t : Trail) : (r.add t).Sound := by
  intro pos
  unfold Reach.add
  split
  · exact h pos
  · have hpos := h pos
    simp only [has] at hpos ⊢
    rw [Nat.testBit_or, Bool.or_eq_true, hpos, Nat.one_shiftLeft, Nat.testBit_two_pow]
    simp only [decide_eq_true_eq, List.mem_cons, exists_eq_or_imp]
    rw [or_comm]

theorem mem_add : u ∈ (r.add t).trails → u ∈ r.trails ∨ u = t := by
  unfold add
  split
  · exact .inl
  · intro h
    rcases List.mem_cons.mp h with h | h
    · exact .inr h
    · exact .inl h

theorem Sound.eq_empty (h : r.Sound) (hr : r.trails = []) : r = {} := by
  obtain ⟨trails, seen⟩ := r
  subst hr
  have hseen : seen = 0 := by
    refine Nat.eq_of_testBit_eq fun pos => ?_
    have := h pos
    simp only [has, List.not_mem_nil, false_and, exists_false, iff_false] at this
    rw [Nat.zero_testBit]
    simpa using this
  rw [hseen]

/-- The second collection has all trails of the first, and after them others for which `Q`
holds. -/
structure Extends (Q : Trail → Prop) (r r' : Reach) : Prop where
  sound : r'.Sound
  grows : ∃ l, r'.trails = l ++ r.trails ∧ ∀ u ∈ l, Q u

namespace Extends

variable {Q Q' : Trail → Prop}

theorem refl (h : r.Sound) : Extends Q r r :=
  ⟨h, [], rfl, fun _ hu => absurd hu List.not_mem_nil⟩

theorem add (h : r.Sound) (hq : Q t) : Extends Q r (r.add t) := by
  refine ⟨h.add t, ?_⟩
  unfold Reach.add
  split
  · exact ⟨[], rfl, fun _ hu => absurd hu List.not_mem_nil⟩
  · refine ⟨[t], rfl, fun u hu => ?_⟩
    rw [List.mem_singleton.mp hu]
    exact hq

theorem trans (h : Extends Q r r') (h' : Extends Q r' r'') : Extends Q r r'' := by
  obtain ⟨l, hl, hq⟩ := h.grows
  obtain ⟨l', hl', hq'⟩ := h'.grows
  refine ⟨h'.sound, l' ++ l, by rw [hl', hl, List.append_assoc], fun u hu => ?_⟩
  rcases List.mem_append.mp hu with hu | hu
  · exact hq' u hu
  · exact hq u hu

theorem keeps (h : Extends Q r r') (hu : u ∈ r.trails) : u ∈ r'.trails := by
  obtain ⟨l, hl, _⟩ := h.grows
  rw [hl]
  exact List.mem_append_right l hu

theorem adds (h : Extends Q r r') (hu : u ∈ r'.trails) : u ∈ r.trails ∨ Q u := by
  obtain ⟨l, hl, hq⟩ := h.grows
  rw [hl] at hu
  rcases List.mem_append.mp hu with hu | hu
  · exact .inr (hq u hu)
  · exact .inl hu

theorem head?_toList (h : Extends Q r r') (hr : r.trails ≠ []) :
    r'.toList.head? = r.toList.head? := by
  obtain ⟨l, hl, _⟩ := h.grows
  obtain ⟨u, us, hus⟩ := List.exists_cons_of_ne_nil fun h => hr (List.reverse_eq_nil_iff.mp h)
  rw [toList, toList, hl, List.reverse_append, hus]
  rfl

theorem mono (h : Extends Q r r') (hq : ∀ u, Q u → Q' u) : Extends Q' r r' :=
  let ⟨l, hl, hall⟩ := h.grows
  ⟨h.sound, l, hl, fun u hu => hq u (hall u hu)⟩

theorem of_empty (h : Extends Q {} r) (hu : u ∈ r.toList) : Q u := by
  rcases h.adds (List.mem_reverse.mp hu) with hu | hq
  · exact absurd hu List.not_mem_nil
  · exact hq

theorem foldl {f : Reach → Trail → Reach} :
    ∀ (l : List Trail) (r : Reach), r.Sound →
      (∀ u ∈ l, ∀ r : Reach, r.Sound → Extends Q r (f r u)) → Extends Q r (l.foldl f r)
  | [], _, h, _ => refl h
  | u :: l, r, h, hf => by
      have hu := hf u List.mem_cons_self r h
      have hl := foldl l (f r u) hu.sound fun v hv => hf v (List.mem_cons_of_mem u hv)
      exact hu.trans hl

end Extends

/-- The first success among the positions reached, in the order in which they were reached. -/
def first (r : Reach) (k : Nat → Option β) : Option β :=
  r.toList.findSome? fun u => k u.pos

@[simp] theorem first_empty (k : Nat → Option β) : first {} k = none :=
  rfl

theorem first_eq_none_iff : r.first k = none ↔ ∀ u ∈ r.trails, k u.pos = none := by
  simp [first, toList, List.findSome?_eq_none_iff]

theorem first_add (h : r.Sound) (t : Trail) : (r.add t).first k = (r.first k).or (k t.pos) := by
  unfold add
  split
  · next hhas =>
    obtain ⟨u, hu, hpos⟩ := (h t.pos).mp hhas
    cases hr : r.first k with
    | some b => rfl
    | none => rw [← hpos, first_eq_none_iff.mp hr u hu]; rfl
  · simp [first, toList, List.findSome?_append]

/-- A list of trails added in turn, each by a step that extends what was reached before. -/
theorem first_foldl {f : Reach → Trail → Reach} {g : Trail → Option β} :
    ∀ (l : List Trail) (r : Reach), r.Sound →
      (∀ u ∈ l, ∀ r : Reach, r.Sound → (f r u).Sound ∧ (f r u).first k = (r.first k).or (g u)) →
      (l.foldl f r).first k = (r.first k).or (l.findSome? g)
  | [], r, _, _ => by simp
  | u :: l, r, h, hf => by
      obtain ⟨hs, hu⟩ := hf u List.mem_cons_self r h
      have hl := first_foldl l (f r u) hs fun v hv => hf v (List.mem_cons_of_mem u hv)
      rw [List.foldl_cons, hl, hu, List.findSome?_cons, Option.or_assoc]
      cases g u <;> simp

/-- A list of trails added in turn, each with other groups perhaps. -/
theorem first_foldl_add {f : Trail → Trail} (hf : ∀ u, (f u).pos = u.pos) (l : List Trail)
    (h : r.Sound) : (l.foldl (fun r u => r.add (f u)) r).first k =
      (r.first k).or (l.findSome? fun u => k u.pos) :=
  first_foldl l r h fun u _ _ hs => ⟨hs.add _, by rw [first_add hs, hf]⟩

end Reach

namespace Pattern

variable {β : Type}

/-! ### Backtracking -/

/-- The first success of a repetition from a position on: a greedy one goes on before it stops, a
lazy one stops before it goes on. -/
def searchStar (size : Nat) (step : Nat → (Nat → Option β) → Option β) (greedy : Bool)
    (k : Nat → Option β) (pos : Nat) : Option β :=
  let again := step pos fun m =>
    if _h : pos < m ∧ m ≤ size then searchStar size step greedy k m else k m
  if greedy then again.or (k pos) else (k pos).or again
termination_by size - pos

/-- The first success of the continuation among the ends of a pattern that begins at a
position. -/
def search (text : Array Char) : Pattern → Nat → (Nat → Option β) → Option β
  | empty, pos, k => k pos
  | char cs, pos, k =>
    match text[pos]? with
    | some c => if cs.contains c then k (pos + 1) else none
    | none => none
  | place p, pos, k => if p.holds text pos then k pos else none
  | seq a b, pos, k => search text a pos fun m => search text b m k
  | alt a b, pos, k => (search text a pos k).or (search text b pos k)
  | star greedy a, pos, k => searchStar text.size (search text a) greedy k pos
  | group _ a, pos, k => search text a pos k

/-! ### Repetitions -/

section walking
variable {size : Nat} {step : Trail → List Trail} {greedy : Bool}
  {again : Nat → (Nat → Option β) → Option β} {k : Nat → Option β}

/-- The second trail is reached from the first by repeated steps. -/
abbrev Walks (step : Trail → List Trail) : Trail → Trail → Prop :=
  Relation.ReflTransGen fun t u => u ∈ step t

mutual

theorem walk_extends (t : Trail) (r : Reach) (hr : r.Sound) :
    Reach.Extends (Walks step t) r (walk size step greedy t r) := by
  rw [walk]
  have hall (r : Reach) (hr : r.Sound) :
      Reach.Extends (Walks step t) r (walkAll size step greedy t.pos (step t) r) := by
    refine (walkAll_extends t.pos (step t) r hr).mono fun u hu => ?_
    obtain ⟨v, hv, hvu⟩ := hu
    exact .head hv hvu
  split
  · have h := hall r hr
    exact h.trans (.add h.sound .refl)
  · exact Reach.Extends.trans (.add hr .refl) (hall _ (hr.add t))
termination_by (size - t.pos, 1, 0)

theorem walkAll_extends (origin : Nat) (steps : List Trail) (r : Reach) (hr : r.Sound) :
    Reach.Extends (fun u => ∃ v ∈ steps, Walks step v u) r
      (walkAll size step greedy origin steps r) := by
  cases steps with
  | nil => rw [walkAll]; exact .refl hr
  | cons u rest =>
      have hfirst {r' : Reach} (h : Reach.Extends (Walks step u) r r') :
          Reach.Extends (fun v => ∃ w ∈ u :: rest, Walks step w v) r r' :=
        h.mono fun v hv => ⟨u, List.mem_cons_self, hv⟩
      have hrest (r : Reach) (hr : r.Sound) :
          Reach.Extends (fun v => ∃ w ∈ u :: rest, Walks step w v) r
            (walkAll size step greedy origin rest r) := by
        refine (walkAll_extends origin rest r hr).mono fun v hv => ?_
        obtain ⟨w, hw, hwv⟩ := hv
        exact ⟨w, List.mem_cons_of_mem u hw, hwv⟩
      rw [walkAll]
      split
      · split
        · exact hrest r hr
        · have h := hfirst (walk_extends u r hr)
          exact h.trans (hrest _ h.sound)
      · exact (hfirst (.add hr .refl)).trans (hrest _ (hr.add u))
termination_by (size - origin, 0, steps.length)

end

/-- The steps of a repetition do not go back, nor beyond `size`. -/
def Bounded (size : Nat) (step : Trail → List Trail) : Prop :=
  ∀ t, t.pos ≤ size → ∀ u ∈ step t, t.pos ≤ u.pos ∧ u.pos ≤ size

theorem Bounded.walks (h : Bounded size step) {t u : Trail} (ht : t.pos ≤ size)
    (hu : Walks step t u) : t.pos ≤ u.pos ∧ u.pos ≤ size := by
  induction hu with
  | refl => exact ⟨Nat.le_refl _, ht⟩
  | tail _ hlast ih =>
      have := h _ ih.2 _ hlast
      omega

/-- What a step of a repetition from `pos` to `m` leads to. -/
def resume (size : Nat) (again : Nat → (Nat → Option β) → Option β) (greedy : Bool)
    (k : Nat → Option β) (pos m : Nat) : Option β :=
  if pos < m ∧ m ≤ size then searchStar size again greedy k m else k m

theorem searchStar_eq (pos : Nat) : searchStar size again greedy k pos =
    if greedy then (again pos (resume size again greedy k pos)).or (k pos)
    else (k pos).or (again pos (resume size again greedy k pos)) := by
  rw [searchStar]
  simp only [dite_eq_ite]
  rfl

/-- All that was reached after `n` has been followed to its ends, unless a success is known. -/
def Settled (size : Nat) (again : Nat → (Nat → Option β) → Option β) (greedy : Bool)
    (k : Nat → Option β) (n : Nat) (r : Reach) : Prop :=
  r.first k = none → ∀ u ∈ r.trails, n < u.pos → searchStar size again greedy k u.pos = none

theorem Settled.extend {n : Nat} {t : Trail} {r r' : Reach}
    (hset : Settled size again greedy k n r)
    (hext : Reach.Extends (fun u => t.pos ≤ u.pos ∧ u.pos ≤ size) r r')
    (hlater : Settled size again greedy k t.pos r')
    (hself : r'.first k = none → searchStar size again greedy k t.pos = none) :
    Settled size again greedy k n r' := by
  intro hnone u hu hlt
  have hall := Reach.first_eq_none_iff.mp hnone
  rcases Nat.lt_trichotomy u.pos t.pos with h | h | h
  · rcases hext.adds hu with hu' | ⟨hle, _⟩
    · exact hset (Reach.first_eq_none_iff.mpr fun v hv => hall v (hext.keeps hv)) u hu' hlt
    · omega
  · rw [h]
    exact hself hnone
  · exact hlater hnone u hu h

mutual

/-- A walk finds the first success of the repetition, unless there was one before. -/
theorem walk_first (hstep : Bounded size step)
    (hagain : ∀ (t : Trail) (k : Nat → Option β), t.pos ≤ size →
      ((step t).findSome? fun u => k u.pos) = again t.pos k)
    (t : Trail) (r : Reach) (n : Nat) (hn : n ≤ t.pos) (ht : t.pos ≤ size) (hr : r.Sound)
    (hset : Settled size again greedy k n r) :
    (walk size step greedy t r).first k
        = (r.first k).or (searchStar size again greedy k t.pos) ∧
      Settled size again greedy k n (walk size step greedy t r) := by
  have hmono : Settled size again greedy k t.pos r :=
    fun hnone u hu hlt => hset hnone u hu (Nat.lt_of_le_of_lt hn hlt)
  have hext : Reach.Extends (fun u => t.pos ≤ u.pos ∧ u.pos ≤ size) r
      (walk size step greedy t r) := (walk_extends t r hr).mono fun u => hstep.walks ht
  have hresult : (walk size step greedy t r).first k
        = (r.first k).or (searchStar size again greedy k t.pos) ∧
      Settled size again greedy k t.pos (walk size step greedy t r) := by
    rw [walk, searchStar_eq]
    split
    · next hg =>
      have h := walkAll_first hstep hagain t.pos (step t) r (hstep t ht) hr hmono
      have hsound : (walkAll size step greedy t.pos (step t) r).Sound :=
        (walkAll_extends t.pos (step t) r hr).sound
      rw [hagain t _ ht] at h
      refine ⟨by rw [Reach.first_add hsound, h.1, Option.or_assoc], fun hnone u hu hlt => ?_⟩
      rw [Reach.first_add hsound, Option.or_eq_none_iff] at hnone
      rcases Reach.mem_add hu with hu | rfl
      · exact h.2 hnone.1 u hu hlt
      · exact absurd hlt (Nat.lt_irrefl _)
    · next hg =>
      have hset' : Settled size again greedy k t.pos (r.add t) := by
        intro hnone u hu hlt
        rw [Reach.first_add hr, Option.or_eq_none_iff] at hnone
        rcases Reach.mem_add hu with hu | rfl
        · exact hmono hnone.1 u hu hlt
        · exact absurd hlt (Nat.lt_irrefl _)
      have h := walkAll_first hstep hagain t.pos (step t) (r.add t) (hstep t ht) (hr.add t) hset'
      rw [hagain t _ ht, Reach.first_add hr, Option.or_assoc] at h
      exact h
  refine ⟨hresult.1, hset.extend hext hresult.2 fun hnone => ?_⟩
  rw [hresult.1, Option.or_eq_none_iff] at hnone
  exact hnone.2
termination_by (size - t.pos, 1, 0)

theorem walkAll_first (hstep : Bounded size step)
    (hagain : ∀ (t : Trail) (k : Nat → Option β), t.pos ≤ size →
      ((step t).findSome? fun u => k u.pos) = again t.pos k)
    (origin : Nat) (steps : List Trail) (r : Reach)
    (hsteps : ∀ u ∈ steps, origin ≤ u.pos ∧ u.pos ≤ size) (hr : r.Sound)
    (hset : Settled size again greedy k origin r) :
    (walkAll size step greedy origin steps r).first k
        = (r.first k).or (steps.findSome? fun u => resume size again greedy k origin u.pos) ∧
      Settled size again greedy k origin (walkAll size step greedy origin steps r) := by
  cases steps with
  | nil =>
      rw [walkAll]
      exact ⟨by simp, hset⟩
  | cons u rest =>
      obtain ⟨hu, hus⟩ := hsteps u List.mem_cons_self
      -- what is left to show once the first step has been taken
      have hrest (r' : Reach) (hr' : r'.Sound) (hset' : Settled size again greedy k origin r')
          (hfirst : r'.first k = (r.first k).or (resume size again greedy k origin u.pos)) :
          (walkAll size step greedy origin rest r').first k = (r.first k).or
              ((u :: rest).findSome? fun u => resume size again greedy k origin u.pos) ∧
            Settled size again greedy k origin (walkAll size step greedy origin rest r') := by
        have h := walkAll_first hstep hagain origin rest r'
          (fun v hv => hsteps v (List.mem_cons_of_mem u hv)) hr' hset'
        refine ⟨?_, h.2⟩
        rw [h.1, hfirst, List.findSome?_cons, Option.or_assoc]
        cases resume size again greedy k origin u.pos <;> simp
      rw [walkAll]
      split
      · next hlt =>
        have hresume : resume size again greedy k origin u.pos
            = searchStar size again greedy k u.pos := if_pos hlt
        split
        · next hhas =>
          refine hrest r hr hset ?_
          obtain ⟨v, hv, hpos⟩ := (hr u.pos).mp hhas
          cases hnone : r.first k with
          | some b => rfl
          | none =>
              have := hset hnone v hv (by omega)
              rw [hresume, ← hpos, this]
              rfl
        · have h := walk_first hstep hagain u r origin hu hus hr hset
          exact hrest _ (walk_extends u r hr).sound h.2 (by rw [hresume]; exact h.1)
      · next hlt =>
        have hresume : resume size again greedy k origin u.pos = k u.pos := if_neg hlt
        refine hrest _ (hr.add u) (fun hnone v hv hlt' => ?_) (by rw [hresume, Reach.first_add hr])
        rw [Reach.first_add hr, Option.or_eq_none_iff] at hnone
        rcases Reach.mem_add hv with hv | rfl
        · exact hset hnone.1 v hv hlt'
        · exact absurd ⟨hlt', hus⟩ hlt
termination_by (size - origin, 0, steps.length)

end

end walking

/-! ### Following a pattern -/

/-- The pattern can match at a position without taking a character. -/
def idle (text : Array Char) (pos : Nat) : Pattern → Bool
  | empty => true
  | char _ => false
  | place p => p.holds text pos
  | seq a b => idle text pos a && idle text pos b
  | alt a b => idle text pos a || idle text pos b
  | star _ _ => true
  | group _ a => idle text pos a

/-- A trail that a pattern can reach from another one: it does not go back, stays in the text, and
passes no group if the pattern has none.  The groups passed lie between its ends. -/
structure Ends (text : Array Char) (p : Pattern) (t u : Trail) : Prop where
  le : t.pos ≤ u.pos
  le_size : u.pos ≤ text.size
  groups (h : p.groupNames = []) : u.groups = t.groups
  idle (h : u.pos = t.pos) : p.idle text t.pos = true
  passed (g : String × Nat × Nat) (h : g ∈ u.groups) :
    g ∈ t.groups ∨ t.pos ≤ g.2.1 ∧ g.2.1 ≤ g.2.2 ∧ g.2.2 ≤ u.pos

theorem passed_trans {t u v : Trail} (htu : t.pos ≤ u.pos) (huv : u.pos ≤ v.pos)
    (h : ∀ g ∈ u.groups, g ∈ t.groups ∨ t.pos ≤ g.2.1 ∧ g.2.1 ≤ g.2.2 ∧ g.2.2 ≤ u.pos)
    (h' : ∀ g ∈ v.groups, g ∈ u.groups ∨ u.pos ≤ g.2.1 ∧ g.2.1 ≤ g.2.2 ∧ g.2.2 ≤ v.pos) :
    ∀ g ∈ v.groups, g ∈ t.groups ∨ t.pos ≤ g.2.1 ∧ g.2.1 ≤ g.2.2 ∧ g.2.2 ≤ v.pos := by
  intro g hg
  rcases h' g hg with hg | hin
  · rcases h g hg with hg | hin
    · exact .inl hg
    · exact .inr (by omega)
  · exact .inr (by omega)

namespace Ends

variable {text : Array Char} {a b : Pattern} {t u v : Trail}

theorem stay {p : Pattern} (ht : t.pos ≤ text.size) (h : p.idle text t.pos = true) :
    Ends text p t t :=
  ⟨Nat.le_refl _, ht, fun _ => rfl, fun _ => h, fun _ => .inl⟩

theorem seq (ha : Ends text a t u) (hb : Ends text b u v) : Ends text (.seq a b) t v := by
  refine ⟨Nat.le_trans ha.le hb.le, hb.le_size, fun h => ?_, fun h => ?_,
    passed_trans ha.le hb.le ha.passed hb.passed⟩
  · obtain ⟨hga, hgb⟩ := List.append_eq_nil_iff.mp h
    rw [hb.groups hgb, ha.groups hga]
  · have hpos : u.pos = t.pos := Nat.le_antisymm (h ▸ hb.le) ha.le
    have hidle := hb.idle (h.trans hpos.symm)
    rw [hpos] at hidle
    rw [Pattern.idle, ha.idle hpos, hidle]
    rfl

theorem left (b : Pattern) (h : Ends text a t u) : Ends text (alt a b) t u :=
  ⟨h.le, h.le_size, fun hg => h.groups (List.append_eq_nil_iff.mp hg).1,
    fun hu => by rw [Pattern.idle, h.idle hu]; rfl, h.passed⟩

theorem right (a : Pattern) (h : Ends text b t u) : Ends text (alt a b) t u :=
  ⟨h.le, h.le_size, fun hg => h.groups (List.append_eq_nil_iff.mp hg).2,
    fun hu => by rw [Pattern.idle, h.idle hu, Bool.or_true], h.passed⟩

theorem again {greedy : Bool} (h : Ends text (star greedy a) t u) (hnext : Ends text a u v) :
    Ends text (star greedy a) t v :=
  ⟨Nat.le_trans h.le hnext.le, hnext.le_size,
    fun hg => (hnext.groups hg).trans (h.groups hg), fun _ => rfl,
    passed_trans h.le hnext.le h.passed hnext.passed⟩

theorem group (name : String) (h : Ends text a t u) :
    Ends text (.group name a) t { u with groups := (name, t.pos, u.pos) :: u.groups } := by
  refine ⟨h.le, h.le_size, fun hg => absurd hg (List.cons_ne_nil _ _), h.idle, fun g hg => ?_⟩
  rcases List.mem_cons.mp hg with rfl | hg
  · exact .inr ⟨Nat.le_refl _, h.le, Nat.le_refl _⟩
  · exact h.passed g hg

end Ends

theorem follow_extends (text : Array Char) (p : Pattern) :
    ∀ (t : Trail) (r : Reach), t.pos ≤ text.size → r.Sound →
      Reach.Extends (Ends text p t) r (follow text p t r) := by
  induction p with
  | empty => exact fun t r ht hr => .add hr (.stay ht rfl)
  | char cs =>
      intro t r ht hr
      unfold follow
      split
      · next c hc =>
        split
        · have hlt : t.pos < text.size := (Array.getElem?_eq_some_iff.mp hc).1
          exact .add hr ⟨Nat.le_succ _, hlt, fun _ => rfl, fun h => absurd h (Nat.succ_ne_self _),
            fun _ => .inl⟩
        · exact .refl hr
      · exact .refl hr
  | place p =>
      intro t r ht hr
      unfold follow
      split
      · next hholds => exact .add hr (.stay ht hholds)
      · exact .refl hr
  | seq a b iha ihb =>
      intro t r ht hr
      refine Reach.Extends.foldl _ r hr fun u hu r hr => ?_
      have ha := (iha t {} ht Reach.sound_empty).of_empty hu
      exact (ihb u r ha.le_size hr).mono fun v hv => ha.seq hv
  | alt a b iha ihb =>
      intro t r ht hr
      have ha : Reach.Extends (Ends text (alt a b) t) r (follow text a t r) :=
        (iha t r ht hr).mono fun u hu => hu.left b
      exact ha.trans ((ihb t _ ht ha.sound).mono fun u hu => hu.right a)
  | star greedy a iha =>
      intro t r ht hr
      refine Reach.Extends.foldl _ r hr fun u hu r hr => .add hr ?_
      have hwalk := (walk_extends t {} Reach.sound_empty).of_empty hu
      clear hu
      induction hwalk with
      | refl => exact .stay ht rfl
      | tail _ hlast ih =>
          exact ih.again ((iha _ {} ih.le_size Reach.sound_empty).of_empty hlast)
  | group name a iha =>
      intro t r ht hr
      refine Reach.Extends.foldl _ r hr fun u hu r hr => .add hr ?_
      exact ((iha t {} ht Reach.sound_empty).of_empty hu).group name

/-- The ends of a pattern lie between its beginning and the end of the text. -/
theorem ends_of_mem_follow {text : Array Char} {p : Pattern} {t u : Trail}
    (ht : t.pos ≤ text.size) (hu : u ∈ (follow text p t {}).toList) : Ends text p t u :=
  (follow_extends text p t {} ht Reach.sound_empty).of_empty hu

theorem bounded_follow (text : Array Char) (p : Pattern) :
    Bounded text.size fun t => (follow text p t {}).toList :=
  fun _ ht _ hu => ⟨(ends_of_mem_follow ht hu).le, (ends_of_mem_follow ht hu).le_size⟩

/-- The positions that the pattern reaches, tried in their order, have the success that backtracking
has, after what was reached before. -/
def FindsFirst (text : Array Char) (p : Pattern) (k : Nat → Option β) : Prop :=
  ∀ (t : Trail) (r : Reach), t.pos ≤ text.size → r.Sound →
    (follow text p t r).first k = (r.first k).or (search text p t.pos k)

section
variable {text : Array Char} {a b : Pattern} {k : Nat → Option β}

/-- The success among the positions that are reached first of all. -/
theorem FindsFirst.findSome? (h : FindsFirst text a k) (t : Trail) (ht : t.pos ≤ text.size) :
    ((follow text a t {}).toList.findSome? fun u => k u.pos) = search text a t.pos k := by
  have hfirst := h t {} ht Reach.sound_empty
  rwa [Reach.first_empty, Option.none_or] at hfirst

theorem FindsFirst.seq (hb : FindsFirst text b k)
    (ha : FindsFirst text a fun m => search text b m k) : FindsFirst text (seq a b) k := by
  intro t r ht hr
  have hfold := Reach.first_foldl (f := fun r u => follow text b u r)
    (g := fun u => search text b u.pos k) (follow text a t {}).toList r hr fun u hu r hr =>
      ⟨(follow_extends text b u r (ends_of_mem_follow ht hu).le_size hr).sound,
        hb u r (ends_of_mem_follow ht hu).le_size hr⟩
  rw [follow, search, hfold, ha.findSome? t ht]

theorem FindsFirst.star (greedy : Bool) (ha : ∀ k : Nat → Option β, FindsFirst text a k) :
    FindsFirst text (star greedy a) k := by
  intro t r ht hr
  have hset : Settled text.size (search text a) greedy k t.pos {} :=
    fun _ u hu => absurd hu List.not_mem_nil
  have hwalk := (walk_first (bounded_follow text a) (fun t k => (ha k).findSome? t) t {} t.pos
    (Nat.le_refl _) ht Reach.sound_empty hset).1
  rw [Reach.first_empty, Option.none_or] at hwalk
  rw [follow, search, ← hwalk]
  exact Reach.first_foldl_add (f := id) (fun _ => rfl) _ hr

theorem FindsFirst.group (name : String) (ha : FindsFirst text a k) :
    FindsFirst text (group name a) k := by
  intro t r ht hr
  rw [follow, search, ← ha.findSome? t ht]
  exact Reach.first_foldl_add (f := fun u => { u with groups := (name, t.pos, u.pos) :: u.groups })
    (fun _ => rfl) _ hr

end

/-- Following a pattern finds what backtracking finds. -/
theorem follow_first (text : Array Char) (p : Pattern) :
    ∀ k : Nat → Option β, FindsFirst text p k := by
  induction p with
  | empty => exact fun k t r _ hr => Reach.first_add hr t
  | char cs =>
      intro k t r _ hr
      unfold follow search
      cases text[t.pos]? with
      | none => simp
      | some c =>
          dsimp only
          split
          · exact Reach.first_add hr _
          · simp
  | place p =>
      intro k t r _ hr
      unfold follow search
      split
      · exact Reach.first_add hr t
      · simp
  | seq a b iha ihb => exact fun k => (ihb k).seq (iha _)
  | alt a b iha ihb =>
      intro k t r ht hr
      have hsound := (follow_extends text a t r ht hr).sound
      rw [follow, search, ihb k t _ ht hsound, iha k t r ht hr, Option.or_assoc]
  | star greedy a iha => exact fun k => .star greedy iha
  | group name a iha => exact fun k => (iha k).group name

/-- A success of backtracking is one of the continuation at a place ahead. -/
theorem exists_of_search {text : Array Char} {p : Pattern} {k : Nat → Option β} {pos : Nat} {b : β}
    (hpos : pos ≤ text.size) (h : search text p pos k = some b) :
    ∃ m, pos ≤ m ∧ m ≤ text.size ∧ k m = some b := by
  have hfollow := (follow_first text p k).findSome? { pos } hpos
  rw [h] at hfollow
  obtain ⟨u, hu, hk⟩ := List.exists_of_findSome?_eq_some hfollow
  have hends := ends_of_mem_follow (t := { pos }) hpos hu
  exact ⟨u.pos, hends.le, hends.le_size, hk⟩

/-! ### Matches -/

section finding
variable {text : Array Char} {p : Pattern} {pos start : Nat}

/-- The end of the preferred match is the first that backtracking finds. -/
theorem matchAt?_pos (p : Pattern) (hpos : pos ≤ text.size) :
    (p.matchAt? text pos).map (·.pos) = search text p pos some := by
  rw [← (follow_first text p some).findSome? { pos } hpos, matchAt?]
  cases (follow text p { pos } {}).toList <;> rfl

theorem matchAt?_eq_none_iff (p : Pattern) (hpos : pos ≤ text.size) :
    p.matchAt? text pos = none ↔ search text p pos some = none := by
  rw [← matchAt?_pos p hpos, Option.map_eq_none_iff]

theorem ends_of_matchAt? {t : Trail} (hpos : pos ≤ text.size)
    (h : p.matchAt? text pos = some t) : Ends text p { pos } t :=
  ends_of_mem_follow hpos (List.mem_of_head? h)

/-- The preferred match of a pattern without groups. -/
theorem matchAt?_eq_some_iff (hg : p.groupNames = []) (hpos : pos ≤ text.size) {t : Trail} :
    p.matchAt? text pos = some t ↔ search text p pos some = some t.pos ∧ t.groups = [] := by
  rw [← matchAt?_pos p hpos]
  cases h : p.matchAt? text pos with
  | none => simp
  | some u =>
      have hu := (ends_of_matchAt? hpos h).groups hg
      obtain ⟨upos, ugroups⟩ := u
      obtain ⟨tpos, tgroups⟩ := t
      simp only at hu
      simp [hu, eq_comm]

theorem findWithin_eq_some_iff {m : Match} : ∀ {n start : Nat},
    p.findWithin text n start = some m ↔
      start ≤ m.start ∧ m.start < start + n ∧
        p.matchAt? text m.start = some ⟨m.stop, m.groups⟩ ∧
        ∀ pos, start ≤ pos → pos < m.start → p.matchAt? text pos = none
  | 0, _ => by
      simp only [findWithin, reduceCtorEq, false_iff]
      omega
  | n + 1, start => by
      rw [findWithin]
      cases h : p.matchAt? text start with
      | some t =>
          simp only [Option.some.injEq]
          constructor
          · rintro rfl
            exact ⟨Nat.le_refl _, by simp, h, fun pos h₁ h₂ => absurd h₁ (Nat.not_le_of_lt h₂)⟩
          · rintro ⟨hle, _, hm, hnone⟩
            rcases Nat.eq_or_lt_of_le hle with heq | hlt
            · rw [← heq, h] at hm
              cases hm
              rw [heq]
            · rw [hnone start (Nat.le_refl _) hlt] at h
              cases h
      | none =>
          dsimp only
          rw [findWithin_eq_some_iff]
          constructor
          · rintro ⟨hle, hlt, hm, hnone⟩
            refine ⟨by omega, by omega, hm, fun pos h₁ h₂ => ?_⟩
            rcases Nat.eq_or_lt_of_le h₁ with rfl | h₁
            · exact h
            · exact hnone pos h₁ h₂
          · rintro ⟨hle, hlt, hm, hnone⟩
            rcases Nat.eq_or_lt_of_le hle with heq | hle
            · rw [← heq, h] at hm
              cases hm
            · exact ⟨hle, by omega, hm, fun pos h₁ h₂ => hnone pos (by omega) h₂⟩

/-- A match found is the preferred one at the first place that has any. -/
theorem find?_eq_some_iff {m : Match} :
    p.find? text start = some m ↔
      start ≤ m.start ∧ m.start ≤ text.size ∧
        p.matchAt? text m.start = some ⟨m.stop, m.groups⟩ ∧
        ∀ pos, start ≤ pos → pos < m.start → p.matchAt? text pos = none := by
  rw [find?, findWithin_eq_some_iff]
  constructor
  · rintro ⟨h₁, h₂, h⟩
    exact ⟨h₁, by omega, h⟩
  · rintro ⟨h₁, h₂, h⟩
    exact ⟨h₁, by omega, h⟩

theorem findWithin_eq_none_iff : ∀ {n start : Nat},
    p.findWithin text n start = none ↔
      ∀ pos, start ≤ pos → pos < start + n → p.matchAt? text pos = none
  | 0, _ => by
      simp only [findWithin, true_iff]
      omega
  | n + 1, start => by
      rw [findWithin]
      cases h : p.matchAt? text start with
      | some t =>
          simp only [reduceCtorEq, false_iff]
          intro hall
          rw [hall start (Nat.le_refl _) (by omega)] at h
          cases h
      | none =>
          dsimp only
          rw [findWithin_eq_none_iff]
          constructor
          · intro hall pos h₁ h₂
            rcases Nat.eq_or_lt_of_le h₁ with rfl | h₁
            · exact h
            · exact hall pos h₁ (by omega)
          · exact fun hall pos h₁ h₂ => hall pos (by omega) (by omega)

theorem find?_eq_none_iff :
    p.find? text start = none ↔
      ∀ pos, start ≤ pos → pos ≤ text.size → p.matchAt? text pos = none := by
  rw [find?, findWithin_eq_none_iff]
  constructor
  · exact fun h pos h₁ h₂ => h pos h₁ (by omega)
  · exact fun h pos h₁ h₂ => h pos h₁ (by omega)

/-- A match found lies between the start of the search and the end of the text. -/
theorem bounds_of_find? {m : Match} (h : p.find? text start = some m) :
    start ≤ m.start ∧ m.start ≤ m.stop ∧ m.stop ≤ text.size := by
  obtain ⟨hle, hsize, hm, _⟩ := find?_eq_some_iff.mp h
  have hends := ends_of_matchAt? hsize hm
  exact ⟨hle, hends.le, hends.le_size⟩

theorem bounds_of_mem_groups {m : Match} (h : p.find? text start = some m)
    {g : String × Nat × Nat} (hg : g ∈ m.groups) :
    m.start ≤ g.2.1 ∧ g.2.1 ≤ g.2.2 ∧ g.2.2 ≤ m.stop := by
  obtain ⟨_, hsize, hm, _⟩ := find?_eq_some_iff.mp h
  rcases (ends_of_matchAt? hsize hm).passed g hg with hg | hin
  · exact absurd hg List.not_mem_nil
  · exact hin

end finding

end Pattern

end TagTemplate
