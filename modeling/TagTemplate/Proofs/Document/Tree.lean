import TagTemplate.Proofs.Document.Nodes

/-! # Documents as forests

In a sound document a node holds only nodes that came before it and that know it as their parent, a
container stands at the top of its tree, and the links to parents cannot go on for ever: some rank
decreases along each of them.

* `Sound.append_fragment`: a fragment put at the end of a sound document keeps it sound.
* `ancestors_eq_cons`: the ancestors of a node are those of its parent, after the node itself.
* `mem_descendants`: what lies below a node lies below one of the nodes it holds. -/

namespace TagTemplate

/-! ### Preparers that stay with their node -/

/-- The preparer changes nothing but the scope, the search paths and the subscription of a node,
and gives no other parent than the one that holds the node, to a node without one. -/
structure Preparer.IsLocal (p : Preparer) : Prop where
  keeps (around : Surroundings) (parent : Option Nat) (n : Node) :
    p.prepare around parent n = { n with
      parent := (p.prepare around parent n).parent
      scope := (p.prepare around parent n).scope
      paths := (p.prepare around parent n).paths
      subscribed := (p.prepare around parent n).subscribed }
  parent (around : Surroundings) (parent : Option Nat) (n : Node) :
    (p.prepare around parent n).parent = n.parent ∨
      n.parent = none ∧ (p.prepare around parent n).parent = parent

theorem Preparer.isLocal_of_mem_builtins {p : Preparer} (h : p ∈ Preparer.builtins) :
    p.IsLocal := by
  simp only [builtins, List.mem_cons, List.not_mem_nil, or_false] at h
  rcases h with rfl | rfl | rfl | rfl
  · exact ⟨fun _ _ _ => rfl, fun _ _ _ => .inl rfl⟩
  · constructor <;> intro around parent n <;> simp only [Preparer.paths] <;> split <;> simp
  · refine ⟨fun _ _ _ => rfl, fun _ parent n => ?_⟩
    cases h : n.parent <;> simp [hierarchy, h]
  · exact ⟨fun _ _ _ => rfl, fun _ _ _ => .inl rfl⟩

/-- A change of nodes that keeps what they are and where they stand. -/
structure Grounded (g : Option Nat → Node → Node) : Prop where
  kind (r : Option Nat) (n : Node) : (g r n).kind = n.kind
  content (r : Option Nat) (n : Node) : (g r n).content = n.content
  container (r : Option Nat) (n : Node) : (g r n).container = n.container
  parent (r : Option Nat) (n : Node) :
    (g r n).parent = n.parent ∨ n.parent = none ∧ (g r n).parent = r

theorem grounded_untouched : Grounded Document.untouched :=
  ⟨fun _ _ => rfl, fun _ _ => rfl, fun _ _ => rfl, fun _ _ => .inl rfl⟩

namespace Node

variable {preparers : List Preparer}

theorem grounded_preparedBy (h : ∀ p ∈ preparers, p.IsLocal) (around : Surroundings) :
    Grounded fun r n => n.preparedBy preparers around r := by
  induction preparers with
  | nil => exact grounded_untouched
  | cons p rest ih =>
      have hp := h p List.mem_cons_self
      obtain ⟨hk, hc, ho, hr⟩ := ih fun q hq => h q (List.mem_cons_of_mem p hq)
      have hstep (r : Option Nat) (n : Node) : preparedBy (p :: rest) around r n
          = preparedBy rest around r (if p.supports n then p.prepare around r n else n) := rfl
      refine ⟨fun r n => ?_, fun r n => ?_, fun r n => ?_, fun r n => ?_⟩ <;> rw [hstep]
      · rw [hk]
        split
        · rw [hp.keeps]
        · rfl
      · rw [hc]
        split
        · rw [hp.keeps]
        · rfl
      · rw [ho]
        split
        · rw [hp.keeps]
        · rfl
      · have hrest := hr r (if p.supports n then p.prepare around r n else n)
        by_cases hs : p.supports n = true
        · have hn := hp.parent around r n
          rw [if_pos hs] at hrest ⊢
          grind
        · rw [if_neg hs] at hrest ⊢
          exact hrest

theorem grounded_prepared (h : ∀ p ∈ preparers, p.IsLocal) (around : Surroundings) :
    Grounded (Node.prepared preparers around) := by
  obtain ⟨hk, hc, ho, hr⟩ := grounded_preparedBy h around
  refine ⟨fun r n => ?_, fun r n => ?_, fun r n => ?_, fun r n => ?_⟩ <;> rw [Node.prepared] <;>
    split
  · rfl
  · exact hk r n
  · rfl
  · exact hc r n
  · rfl
  · exact ho r n
  · exact .inl rfl
  · exact hr r n

end Node

/-! ### Runs of nodes as forests -/

/-- The nodes `ns` from the number `n` on form trees: each holds nodes of the run that came before
it, and its parent, where it has one, comes later in the run or is `q`. -/
def Strand (n : Nat) (q : Option Nat) (ns : List Node) : Prop :=
  ∀ (i : Nat) (x : Node), ns[i]? = some x →
    x.container = none ∧
    (x.parent = none ∨ x.parent = q ∨ ∃ j, i < j ∧ j < ns.length ∧ x.parent = some (n + j)) ∧
    ∀ c ∈ x.children, ∃ k y, c = n + k ∧ k < i ∧ ns[k]? = some y ∧
      (y.parent = none ∨ y.parent = some (n + i))

namespace Strand

variable {n : Nat} {q : Option Nat} {ns ms : List Node}

theorem nil : Strand n q [] := by
  intro i x h
  simp at h

theorem append (hn : Strand n q ns) (hm : Strand (n + ns.length) q ms) :
    Strand n q (ns ++ ms) := by
  intro i x hx
  rcases Nat.lt_or_ge i ns.length with hi | hi
  · rw [List.getElem?_append_left hi] at hx
    obtain ⟨hc, hp, hk⟩ := hn i x hx
    refine ⟨hc, ?_, fun c hcx => ?_⟩
    · rcases hp with hp | hp | ⟨j, hij, hj, hp⟩
      · exact .inl hp
      · exact .inr (.inl hp)
      · exact .inr (.inr ⟨j, hij, by rw [List.length_append]; omega, hp⟩)
    · obtain ⟨k, y, rfl, hki, hy, hyp⟩ := hk c hcx
      exact ⟨k, y, rfl, hki, by rw [List.getElem?_append_left (by omega), hy], hyp⟩
  · obtain ⟨i, rfl⟩ : ∃ j, i = ns.length + j := ⟨i - ns.length, by omega⟩
    rw [List.getElem?_append_right hi, Nat.add_sub_cancel_left] at hx
    obtain ⟨hc, hp, hk⟩ := hm i x hx
    refine ⟨hc, ?_, fun c hcx => ?_⟩
    · rcases hp with hp | hp | ⟨j, hij, hj, hp⟩
      · exact .inl hp
      · exact .inr (.inl hp)
      · exact .inr (.inr ⟨ns.length + j, by omega, by rw [List.length_append]; omega,
          by rw [hp, Nat.add_assoc]⟩)
    · obtain ⟨k, y, rfl, hki, hy, hyp⟩ := hk c hcx
      refine ⟨ns.length + k, y, by omega, by omega, ?_, by rwa [Nat.add_assoc] at hyp⟩
      rw [List.getElem?_append_right (by omega), Nat.add_sub_cancel_left, hy]

theorem singleton {x : Node} (hc : x.container = none) (hp : x.parent = none ∨ x.parent = q)
    (hk : x.children = []) : Strand n q [x] := by
  intro i y hy
  obtain ⟨hi, rfl⟩ := List.getElem?_eq_some_iff.mp hy
  have hi : i = 0 := by simpa using hi
  subst hi
  refine ⟨hc, ?_, by simp [hk]⟩
  rcases hp with hp | hp
  · exact .inl hp
  · exact .inr (.inl hp)

theorem close {x : Node} (hn : Strand n (some (n + ns.length)) ns) (hc : x.container = none)
    (hp : x.parent = none ∨ x.parent = q)
    (hk : ∀ c ∈ x.children, ∃ k y, c = n + k ∧ ns[k]? = some y ∧
      (y.parent = none ∨ y.parent = some (n + ns.length))) :
    Strand n q (ns ++ [x]) := by
  intro i y hy
  rcases Nat.lt_or_ge i ns.length with hi | hi
  · rw [List.getElem?_append_left hi] at hy
    obtain ⟨hyc, hyp, hyk⟩ := hn i y hy
    refine ⟨hyc, ?_, fun c hcx => ?_⟩
    · rcases hyp with hyp | hyp | ⟨j, hij, hj, hyp⟩
      · exact .inl hyp
      · exact .inr (.inr ⟨ns.length, hi, by simp, hyp⟩)
      · exact .inr (.inr ⟨j, hij, by rw [List.length_append]; omega, hyp⟩)
    · obtain ⟨k, z, rfl, hki, hz, hzp⟩ := hyk c hcx
      exact ⟨k, z, rfl, hki, by rw [List.getElem?_append_left (by omega), hz], hzp⟩
  · obtain ⟨i, rfl⟩ : ∃ j, i = ns.length + j := ⟨i - ns.length, by omega⟩
    rw [List.getElem?_append_right hi, Nat.add_sub_cancel_left] at hy
    obtain ⟨hi', rfl⟩ := List.getElem?_eq_some_iff.mp hy
    have : i = 0 := by simpa using hi'
    subst this
    refine ⟨hc, ?_, fun c hcx => ?_⟩
    · rcases hp with hp | hp
      · exact .inl hp
      · exact .inr (.inl hp)
    · obtain ⟨k, z, rfl, hz, hzp⟩ := hk c hcx
      obtain ⟨hlt, _⟩ := List.getElem?_eq_some_iff.mp hz
      exact ⟨k, z, rfl, hlt, by rw [List.getElem?_append_left hlt, hz], hzp⟩

end Strand

namespace Part

variable {g : Option Nat → Node → Node} (hg : Grounded g)

theorem own_parent (n : Nat) (p : Part) : (own n p).parent = none := by
  cases p <;> rfl

theorem own_container (n : Nat) (p : Part) : (own n p).container = none := by
  cases p <;> rfl

theorem getElem?_run_own (n : Nat) (q : Option Nat) (p : Part) :
    (run g n q p)[p.count - 1]? = some (g q (own n p)) := by
  cases p <;> simp [run, count]

include hg

theorem parent_own (n : Nat) (q : Option Nat) (p : Part) :
    (g q (own n p)).parent = none ∨ (g q (own n p)).parent = q := by
  rcases hg.parent q (own n p) with h | ⟨_, h⟩
  · exact .inl (h.trans (own_parent n p))
  · exact .inr h

theorem container_own (n : Nat) (q : Option Nat) (p : Part) :
    (g q (own n p)).container = none :=
  (hg.container q (own n p)).trans (own_container n p)

/-- The nodes of the parts of a list have the parent of the list, or none. -/
theorem exists_of_mem_numbers {n c : Nat} {q : Option Nat} {ps : List Part}
    (h : c ∈ numbers n ps) :
    ∃ k y, c = n + k ∧ (runAll g n q ps)[k]? = some y ∧ (y.parent = none ∨ y.parent = q) := by
  induction ps generalizing n with
  | nil => simp [numbers] at h
  | cons p rest ih =>
      have hpos := p.count_pos
      rw [numbers, List.mem_cons] at h
      rcases h with rfl | h
      · refine ⟨p.count - 1, g q (own n p), by omega, ?_, parent_own hg n q p⟩
        rw [runAll, List.getElem?_append_left (by rw [length_run]; omega), getElem?_run_own]
      · obtain ⟨k, y, rfl, hy, hp⟩ := ih h
        refine ⟨p.count + k, y, by omega, ?_, hp⟩
        rw [runAll, List.getElem?_append_right (by rw [length_run]; omega), length_run,
          Nat.add_sub_cancel_left, hy]

theorem children_own (n : Nat) (q : Option Nat) (p : Part) :
    (g q (own n p)).children = (own n p).children := by
  simp only [Node.children, hg.content]

omit hg in
mutual

theorem strand_run (hg : Grounded g) (n : Nat) (q : Option Nat) (p : Part) :
    Strand n q (run g n q p) := by
  cases p with
  | block tag body inside parts span =>
      rw [run]
      refine Strand.close ?_ (container_own hg _ _ _) (parent_own hg _ _ _) fun c hc => ?_
      · rw [length_runAll]
        exact strand_runAll hg n _ parts
      · rw [children_own hg] at hc
        rw [length_runAll]
        exact exists_of_mem_numbers hg hc
  | literal text span =>
      exact .singleton (container_own hg _ _ _) (parent_own hg _ _ _) (by rw [children_own hg]; rfl)
  | leaf tag body matched span =>
      exact .singleton (container_own hg _ _ _) (parent_own hg _ _ _) (by rw [children_own hg]; rfl)
  | raw tag body inside span =>
      exact .singleton (container_own hg _ _ _) (parent_own hg _ _ _) (by rw [children_own hg]; rfl)

theorem strand_runAll (hg : Grounded g) (n : Nat) (q : Option Nat) (ps : List Part) :
    Strand n q (runAll g n q ps) := by
  cases ps with
  | nil => exact .nil
  | cons p rest =>
      rw [runAll]
      refine (strand_run hg n q p).append ?_
      rw [length_run]
      exact strand_runAll hg (n + p.count) q rest

end

theorem strand_fragment (n : Nat) (q : Option Nat) (ps : List Part) (span : Span) :
    Strand n q (fragment g n q ps span) := by
  refine Strand.close ?_ (hg.container q _) ?_ fun c hc => ?_
  · rw [length_runAll]
    exact strand_runAll hg n _ ps
  · rcases hg.parent q (.root (numbers n ps) span) with h | ⟨_, h⟩
    · exact .inl h
    · exact .inr h
  · rw [length_runAll]
    have : c ∈ numbers n ps := by
      simpa only [Node.children, hg.content, Node.root] using hc
    exact exists_of_mem_numbers hg this

end Part

/-! ### Sound documents -/

namespace Document

/-- The nodes of a document form a forest. -/
structure Sound (d : Document) : Prop where
  child_lt {i c : Nat} (h : c ∈ (d.node i).children) : c < i
  child_parent {i c : Nat} (h : c ∈ (d.node i).children) :
    (d.node c).parent = none ∨ (d.node c).parent = some i
  child_container {i c : Nat} (h : c ∈ (d.node i).children) : (d.node c).container = none
  container_parent {i : Nat} (h : (d.node i).container ≠ none) : (d.node i).parent = none
  ranked : ∃ rank : Nat → Nat, ∀ i < d.size, rank i < d.size ∧
    ∀ p, (d.node i).parent = some p → p < d.size ∧ rank p < rank i

theorem node_of_size_le {d : Document} {i : Nat} (h : d.size ≤ i) :
    d.node i = .root [] ⟨0, 0⟩ := by
  have : d.get? i = none := by
    simp only [get?, Array.getElem?_eq_none_iff]
    exact h
  simp [node, this]

theorem sound_empty : Sound ∅ := by
  have hnode (i : Nat) : (∅ : Document).node i = .root [] ⟨0, 0⟩ :=
    node_of_size_le (Nat.zero_le i)
  refine ⟨fun h => ?_, fun h => ?_, fun h => ?_, fun {i} _ => ?_, ⟨fun _ => 0, fun i hi => ?_⟩⟩
  · rw [hnode] at h; exact absurd h (List.not_mem_nil)
  · rw [hnode] at h; exact absurd h (List.not_mem_nil)
  · rw [hnode] at h; exact absurd h (List.not_mem_nil)
  · rw [hnode]; rfl
  · exact absurd hi (Nat.not_lt_zero i)

/-- What a node holds after a forest was put at the end of a document: an old node what it held
before, a new one earlier nodes of the forest. -/
theorem children_append {d : Document} {q : Option Nat} {ns : List Node}
    (hs : Strand d.size q ns) {i c : Nat} (hc : c ∈ ((d.append ns).node i).children) :
    (i < d.size ∧ c ∈ (d.node i).children) ∨
      ∃ j k x y, i = d.size + j ∧ ns[j]? = some x ∧ c ∈ x.children ∧
        c = d.size + k ∧ k < j ∧ ns[k]? = some y ∧ (y.parent = none ∨ y.parent = some i) := by
  rcases Nat.lt_or_ge i d.size with hi | hi
  · rw [node_append_left hi] at hc
    exact .inl ⟨hi, hc⟩
  · obtain ⟨j, rfl⟩ : ∃ j, i = d.size + j := ⟨i - d.size, by omega⟩
    cases hx : ns[j]? with
    | none =>
        have hlen := List.getElem?_eq_none_iff.mp hx
        rw [node_of_size_le (by rw [size_append]; omega)] at hc
        exact absurd hc List.not_mem_nil
    | some x =>
        rw [node_append_right hx] at hc
        obtain ⟨k, y, hck, hkj, hy, hp⟩ := (hs j x hx).2.2 c hc
        exact .inr ⟨j, k, x, y, rfl, hx, hc, hck, hkj, hy, hp⟩

namespace Sound

variable {d : Document}

theorem lt_size_of_child (h : d.Sound) {i c : Nat} (hi : i < d.size)
    (hc : c ∈ (d.node i).children) : c < d.size :=
  Nat.lt_trans (h.child_lt hc) hi

theorem unheld_last (h : d.Sound) {last : Nat} (hsize : d.size = last + 1) (i : Nat) :
    last ∉ (d.node i).children := by
  intro hi
  have hlt := h.child_lt hi
  rw [node_of_size_le (by omega)] at hi
  exact List.not_mem_nil hi

theorem parent_lt (h : d.Sound) {i p : Nat} (hi : i < d.size) (hp : (d.node i).parent = some p) :
    p < d.size := by
  obtain ⟨rank, hr⟩ := h.ranked
  exact ((hr i hi).2 p hp).1

section append
variable {q : Option Nat} {ns : List Node}

/-- The ranks of a forest at the end of a sound document: below `q`, and the later a node the nearer
to the top. -/
theorem ranked_append (h : d.Sound) (hs : Strand d.size q ns)
    (hq : ∀ p, q = some p → p < d.size) :
    ∃ rank : Nat → Nat, ∀ i < (d.append ns).size, rank i < (d.append ns).size ∧
      ∀ p, ((d.append ns).node i).parent = some p → p < (d.append ns).size ∧ rank p < rank i := by
  obtain ⟨rank, hr⟩ := h.ranked
  let base := q.elim 0 fun p => rank p + 1
  have hbase : base ≤ d.size := by
    cases q with
    | none => exact Nat.zero_le _
    | some p => exact (hr p (hq p rfl)).1
  refine ⟨fun i => if i < d.size then rank i else base + (d.size + ns.length - 1 - i), ?_⟩
  intro i hi
  rcases Nat.lt_or_ge i d.size with hlt | hge
  · obtain ⟨hri, hpi⟩ := hr i hlt
    rw [node_append_left hlt]
    simp only [if_pos hlt, size_append]
    refine ⟨by omega, fun p hp => ?_⟩
    obtain ⟨hps, hpr⟩ := hpi p hp
    rw [if_pos hps]
    exact ⟨by omega, hpr⟩
  · obtain ⟨j, x, rfl, hx, hnode⟩ := exists_appended hge hi
    obtain ⟨hj, _⟩ := List.getElem?_eq_some_iff.mp hx
    rw [hnode]
    simp only [size_append, if_neg (Nat.not_lt.mpr hge)]
    refine ⟨by omega, fun p hp => ?_⟩
    rcases (hs j x hx).2.1 with hnone | hq' | ⟨k, hjk, hk, hp'⟩
    · rw [hnone] at hp; cases hp
    · rw [hq'] at hp
      subst hp
      have hps := hq p rfl
      rw [if_pos hps]
      exact ⟨by omega, by simp only [base, Option.elim_some]; omega⟩
    · rw [hp'] at hp
      cases hp
      rw [if_neg (by omega)]
      exact ⟨by omega, by omega⟩

/-- A forest at the end of a sound document, hung below one of its nodes or below none. -/
theorem append (h : d.Sound) (hs : Strand d.size q ns) (hq : ∀ p, q = some p → p < d.size) :
    (d.append ns).Sound := by
  refine ⟨fun {i c} hc => ?_, fun {i c} hc => ?_, fun {i c} hc => ?_, fun {i} hi => ?_,
    h.ranked_append hs hq⟩
  · rcases children_append hs hc with ⟨_, hc⟩ | ⟨j, k, _, _, rfl, _, _, rfl, hkj, _⟩
    · exact h.child_lt hc
    · omega
  · rcases children_append hs hc with ⟨hi, hc⟩ | ⟨j, k, _, y, rfl, _, _, rfl, hkj, hy, hp⟩
    · rw [node_append_left (h.lt_size_of_child hi hc)]
      exact h.child_parent hc
    · rwa [node_append_right hy]
  · rcases children_append hs hc with ⟨hi, hc⟩ | ⟨j, k, _, y, rfl, _, _, rfl, hkj, hy, hp⟩
    · rw [node_append_left (h.lt_size_of_child hi hc)]
      exact h.child_container hc
    · rw [node_append_right hy]
      exact (hs k y hy).1
  · rcases Nat.lt_or_ge i d.size with hlt | hge
    · rw [node_append_left hlt] at hi ⊢
      exact h.container_parent hi
    · rcases Nat.lt_or_ge i (d.append ns).size with hi' | hi'
      · obtain ⟨j, x, rfl, hx, hnode⟩ := exists_appended hge hi'
        rw [hnode] at hi
        exact absurd (hs j x hx).1 hi
      · rw [node_of_size_le hi']
        rfl

end append

end Sound

/-! ### Ancestors -/

section ancestors
variable {d e : Document}

theorem ancestorsWithin_eq_of_rank {rank : Nat → Nat}
    (hr : ∀ i < d.size, ∀ p, (d.node i).parent = some p → p < d.size ∧ rank p < rank i) :
    ∀ (m n id : Nat), id < d.size → rank id < m → rank id < n →
      d.ancestorsWithin m id = d.ancestorsWithin n id
  | 0, _, _, _, hm, _ => absurd hm (Nat.not_lt_zero _)
  | _, 0, _, _, _, hn => absurd hn (Nat.not_lt_zero _)
  | m + 1, n + 1, id, hid, hm, hn => by
      simp only [ancestorsWithin]
      cases hp : (d.node id).parent with
      | none => rfl
      | some p =>
          obtain ⟨hps, hpr⟩ := hr id hid p hp
          simp only [ancestorsWithin_eq_of_rank hr m n p hps (by omega) (by omega)]

/-- The ancestors of a node are those of its parent, after the node itself. -/
theorem Sound.ancestors_eq_cons (h : d.Sound) {id : Nat} (hid : id < d.size) :
    d.ancestors id = id :: ((d.node id).parent.elim [] d.ancestors) := by
  obtain ⟨rank, hr⟩ := h.ranked
  obtain ⟨m, hm⟩ : ∃ m, d.size = m + 1 := ⟨d.size - 1, by omega⟩
  unfold ancestors
  rw [hm, ancestorsWithin, ← hm]
  cases hp : (d.node id).parent with
  | none => rfl
  | some p =>
      obtain ⟨hps, hpr⟩ := (hr id hid).2 p hp
      have hlt := (hr id hid).1
      simp only [Option.elim_some]
      rw [ancestorsWithin_eq_of_rank (fun i hi => (hr i hi).2) m d.size p hps (by omega)
        (hr p hps).1]

theorem Sound.parent_induction (h : d.Sound) {P : Nat → Prop}
    (step : ∀ id < d.size, (∀ p, (d.node id).parent = some p → P p) → P id) :
    ∀ id < d.size, P id := by
  obtain ⟨rank, hr⟩ := h.ranked
  have hall : ∀ (n id : Nat), rank id < n → id < d.size → P id := by
    intro n
    induction n with
    | zero => exact fun id hn _ => absurd hn (Nat.not_lt_zero _)
    | succ n ih =>
        intro id hn hid
        refine step id hid fun p hp => ?_
        obtain ⟨hps, hpr⟩ := (hr id hid).2 p hp
        exact ih p (by omega) hps
  exact fun id hid => hall (rank id + 1) id (Nat.lt_succ_self _) hid

theorem Sound.lt_of_mem_ancestors (h : d.Sound) {id a : Nat} (hid : id < d.size)
    (ha : a ∈ d.ancestors id) : a < d.size := by
  revert ha
  refine h.parent_induction (P := fun id => a ∈ d.ancestors id → a < d.size) ?_ id hid
  intro id hid ih ha
  rw [h.ancestors_eq_cons hid, List.mem_cons] at ha
  rcases ha with rfl | ha
  · exact hid
  · cases hp : (d.node id).parent with
    | none => rw [hp] at ha; exact absurd ha List.not_mem_nil
    | some p => rw [hp] at ha; exact ih p hp ha

theorem Sound.ancestors_congr (h : d.Sound) (he : e.Sound) (hle : d.size ≤ e.size)
    (hp : ∀ i < d.size, (e.node i).parent = (d.node i).parent) :
    ∀ id < d.size, e.ancestors id = d.ancestors id := by
  refine h.parent_induction fun id hid ih => ?_
  rw [he.ancestors_eq_cons (by omega), h.ancestors_eq_cons hid, hp id hid]
  congr 1
  cases hq : (d.node id).parent with
  | none => rfl
  | some p => exact ih p hq

/-- The nearest container is the node itself or that of its parent. -/
theorem Sound.nearestContainer?_eq (h : d.Sound) {id : Nat} (hid : id < d.size) :
    d.nearestContainer? id =
      if (d.node id).container.isSome then some id
      else (d.node id).parent.bind d.nearestContainer? := by
  unfold nearestContainer?
  rw [h.ancestors_eq_cons hid, List.find?_cons]
  cases hc : (d.node id).container.isSome with
  | true => simp
  | false => cases (d.node id).parent <;> simp

end ancestors

/-! ### Descendants -/

section descendants
variable {d e : Document}

theorem map_fst_family (d : Document) (p q : Option Nat) (id : Nat) :
    (d.family p id).map (·.1) = (d.family q id).map (·.1) := by
  rw [family_of_children, family_of_children, List.map_cons, List.map_cons]

theorem mem_descendants {id j : Nat} :
    j ∈ d.descendants id ↔
      j = id ∨ ∃ c ∈ (d.node id).children, c < id ∧ j ∈ d.descendants c := by
  unfold descendants
  rw [family_of_children, List.map_cons, List.mem_cons, List.map_flatMap, List.mem_flatMap]
  constructor
  · rintro (h | ⟨c, hc, h⟩)
    · exact .inl h
    · split at h
      · next hlt => exact .inr ⟨c, hc, hlt, by rwa [map_fst_family d none (some id)]⟩
      · exact absurd h List.not_mem_nil
  · rintro (h | ⟨c, hc, hlt, h⟩)
    · exact .inl h
    · exact .inr ⟨c, hc, by rwa [if_pos hlt, map_fst_family d (some id) none]⟩

theorem mem_descendants_self (d : Document) (id : Nat) : id ∈ d.descendants id :=
  mem_descendants.mpr (.inl rfl)

theorem le_of_mem_descendants {id j : Nat} (h : j ∈ d.descendants id) : j ≤ id := by
  induction id using Nat.strongRecOn with
  | ind id ih =>
      rcases mem_descendants.mp h with rfl | ⟨c, _, hlt, hj⟩
      · exact Nat.le_refl _
      · exact Nat.le_trans (ih c hlt hj) (Nat.le_of_lt hlt)

theorem descendants_of_child {id c : Nat} (hc : c ∈ (d.node id).children) (hlt : c < id) {j : Nat}
    (hj : j ∈ d.descendants c) : j ∈ d.descendants id :=
  mem_descendants.mpr (.inr ⟨c, hc, hlt, hj⟩)

/-- What lies below a node depends on what the nodes up to it hold. -/
theorem mem_descendants_congr {id j : Nat}
    (h : ∀ i ≤ id, (e.node i).children = (d.node i).children) :
    j ∈ e.descendants id ↔ j ∈ d.descendants id := by
  induction id using Nat.strongRecOn with
  | ind id ih =>
      rw [mem_descendants, mem_descendants, h id (Nat.le_refl _)]
      refine or_congr Iff.rfl (exists_congr fun c => and_congr_right fun _ =>
        and_congr_right fun hlt => ?_)
      exact ih c hlt fun i hi => h i (by omega)

end descendants

end Document

end TagTemplate
