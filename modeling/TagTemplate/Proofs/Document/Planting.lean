import Mathlib.Data.List.Flatten
import Mathlib.Data.List.Nodup
import TagTemplate.Proofs.Document.Rift
import TagTemplate.Proofs.Document.Tiling

/-! # Fragments as trees

Reading a template text puts one tree at the end of a document and changes nothing before it.

* `Part.perm_held_runAll`: in the run of a list of parts, each node is held by one other node of
  the run, or is one of the parts themselves.
* `Document.unstack`: the nodes below a node, taken from a stack one after another.  It ends
  wherever nodes hold only earlier ones, after as many steps as there are nodes.
* `Document.readFragment_shifted`: a text is read as into an empty document, all numbers shifted.
* `Document.readFragment_plants`: the tree of a text. -/

namespace TagTemplate

/-! ### Each node of a run is held once -/

namespace Part

variable {g : Option Nat → Node → Node}

mutual

/-- The nodes held in the run of a part, and the part itself, are those of the run. -/
theorem perm_held_run (hg : Grounded g) (n : Nat) (q : Option Nat) (p : Part) :
    ((run g n q p).flatMap Node.children ++ [n + p.count - 1]).Perm (List.range' n p.count) := by
  cases p with
  | block tag body inside parts span =>
      have hinner := perm_held_runAll hg n (some (n + countAll parts)) parts
      have hown : (g q (own n (.block tag body inside parts span))).children = numbers n parts :=
        children_own hg n q _
      have hlast : n + (countAll parts + 1) - 1 = n + countAll parts := by omega
      rw [run, count, List.flatMap_append, List.flatMap_singleton, hown, hlast,
        List.range'_1_concat]
      exact hinner.append_right _
  | literal text span | leaf tag body matched span | raw tag body inside span =>
      have hown := children_own hg n q
      simp only [run, count, List.flatMap_singleton, hown]
      exact List.Perm.refl _

/-- The nodes held in the run of a list of parts, and the parts themselves, are those of the
run. -/
theorem perm_held_runAll (hg : Grounded g) (n : Nat) (q : Option Nat) (ps : List Part) :
    ((runAll g n q ps).flatMap Node.children ++ numbers n ps).Perm
      (List.range' n (countAll ps)) := by
  cases ps with
  | nil => exact List.Perm.refl _
  | cons p rest =>
      have hp := perm_held_run hg n q p
      have hrest := perm_held_runAll hg (n + p.count) q rest
      have hswap : ((run g n q p ++ runAll g (n + p.count) q rest).flatMap Node.children ++
          (n + p.count - 1) :: numbers (n + p.count) rest).Perm
          (((run g n q p).flatMap Node.children ++ [n + p.count - 1]) ++
            ((runAll g (n + p.count) q rest).flatMap Node.children ++
              numbers (n + p.count) rest)) := by
        rw [List.flatMap_append, List.append_assoc, List.append_assoc]
        apply List.Perm.append_left
        rw [List.singleton_append]
        exact List.perm_middle
      rw [runAll, numbers, countAll, ← List.range'_append_1]
      exact hswap.trans (hp.append hrest)

end

theorem perm_held_fragment (hg : Grounded g) (n : Nat) (q : Option Nat) (ps : List Part)
    (span : Span) :
    ((fragment g n q ps span).flatMap Node.children).Perm (List.range' n (countAll ps)) := by
  have hroot : (g q (.root (numbers n ps) span)).children = numbers n ps := by
    simp only [Node.children, hg.content, Node.root]
  rw [fragment, List.flatMap_append, List.flatMap_singleton, hroot]
  exact perm_held_runAll hg n _ ps

mutual

theorem perm_family (n : Nat) (q : Option Nat) (p : Part) :
    ((family n q p).map (·.1)).Perm (List.range' n p.count) := by
  cases p with
  | block tag body inside parts span =>
      rw [family, count, List.map_cons, List.range'_1_concat]
      refine List.Perm.trans ?_ List.perm_append_comm
      exact (perm_familyAll n _ parts).cons _
  | literal text span | leaf tag body matched span | raw tag body inside span =>
      exact List.Perm.refl _

theorem perm_familyAll (n : Nat) (q : Option Nat) (ps : List Part) :
    ((familyAll n q ps).map (·.1)).Perm (List.range' n (countAll ps)) := by
  cases ps with
  | nil => exact List.Perm.refl _
  | cons p rest =>
      rw [familyAll, countAll, List.map_append, ← List.range'_append_1]
      exact (perm_family n q p).append (perm_familyAll (n + p.count) q rest)

end

end Part

/-- If no node is held twice, a node that is held is held once, by one node. -/
theorem Node.exists_holder {ns : List Node} (hnodup : (ns.flatMap Node.children).Nodup) {c : Nat}
    (hc : c ∈ ns.flatMap Node.children) :
    ∃ (i : Nat) (x : Node), ns[i]? = some x ∧ x.children.count c = 1 ∧
      ∀ (j : Nat) (y : Node), ns[j]? = some y → c ∈ y.children → j = i := by
  obtain ⟨hkids, hdisjoint⟩ := List.nodup_flatMap.mp hnodup
  obtain ⟨x, hx, hcx⟩ := List.mem_flatMap.mp hc
  obtain ⟨i, hi⟩ := List.mem_iff_getElem?.mp hx
  refine ⟨i, x, hi, List.count_eq_one_of_mem (hkids x hx) hcx, fun j y hj hcy => ?_⟩
  obtain ⟨hi', rfl⟩ := List.getElem?_eq_some_iff.mp hi
  obtain ⟨hj', rfl⟩ := List.getElem?_eq_some_iff.mp hj
  have hpairs := List.pairwise_iff_getElem.mp hdisjoint
  rcases Nat.lt_trichotomy j i with hlt | heq | hlt
  · exact absurd hcx (hpairs j i hj' hi' hlt hcy)
  · exact heq
  · exact absurd hcy (hpairs i j hi' hj' hlt hcx)

namespace Document

open TagTemplate.Part

/-! ### Walks through a stack -/

/-- Takes the top of a stack of nodes and puts the nodes that it holds in its place, until the
stack is empty: the nodes taken, or none if nodes are left after so many steps. -/
def unstack (d : Document) : Nat → List Nat → Option (List Nat)
  | _, [] => some []
  | 0, _ :: _ => none
  | steps + 1, id :: rest => (d.unstack steps ((d.node id).children ++ rest)).map (id :: ·)

/-- Taking the nodes `ids` and all below them from a stack lists them, in as many steps as they
are, if that holds of each of them. -/
theorem unstack_append_of_forall {d : Document} {ids : List Nat}
    (hids : ∀ i ∈ ids, ∀ steps rest, d.unstack ((d.descendants i).length + steps) (i :: rest) =
      (d.unstack steps rest).map (d.descendants i ++ ·)) (steps : Nat) (rest : List Nat) :
    d.unstack ((ids.flatMap d.descendants).length + steps) (ids ++ rest) =
      (d.unstack steps rest).map (ids.flatMap d.descendants ++ ·) := by
  induction ids with
  | nil => simp
  | cons i ids ih =>
      obtain ⟨hi, hids⟩ := List.forall_mem_cons.mp hids
      rw [List.flatMap_cons, List.length_append, Nat.add_assoc, List.cons_append, hi, ih hids,
        Option.map_map]
      simp only [Function.comp_def, List.append_assoc]

/-- The nodes from the number `n` on hold only nodes from there on that came before them. -/
def Stacked (d : Document) (n : Nat) : Prop :=
  ∀ i, n ≤ i → ∀ c ∈ (d.node i).children, n ≤ c ∧ c < i

section stacked
variable {d : Document} {n : Nat} (h : d.Stacked n)
include h

theorem Stacked.descendants_eq {i : Nat} (hi : n ≤ i) :
    d.descendants i = i :: (d.node i).children.flatMap d.descendants := by
  unfold descendants
  rw [family_of_children, List.map_cons, List.map_flatMap]
  refine congrArg (i :: ·) (List.flatMap_congr fun c hc => ?_)
  rw [if_pos (h i hi c hc).2, map_fst_family]

/-- A node comes before the nodes that it holds, and these come in their order. -/
theorem Stacked.sublist_descendants {i j : Nat} (hi : n ≤ i) (hj : j ∈ d.descendants i) :
    (j :: (d.node j).children).Sublist (d.descendants i) := by
  induction i using Nat.strongRecOn with
  | ind i ih =>
      rw [h.descendants_eq hi]
      rcases mem_descendants.mp hj with rfl | ⟨c, hc, hlt, hj⟩
      · have hheads : ((d.node j).children.flatMap fun c => [c]).Sublist
            ((d.node j).children.flatMap d.descendants) := by
          refine List.Sublist.flatMap_right _ fun c hc => ?_
          exact List.singleton_sublist.mpr (mem_descendants_self d c)
        rw [List.flatMap_singleton'] at hheads
        exact hheads.cons_cons j
      · have hbelow := ih c hlt (h i hi c hc).1 hj
        have hpart : (d.descendants c).Sublist ((d.node i).children.flatMap d.descendants) :=
          List.sublist_flatten_of_mem (List.mem_map_of_mem hc)
        exact (hbelow.trans hpart).cons i

theorem Stacked.unstack_cons {i : Nat} (hi : n ≤ i) (steps : Nat) (rest : List Nat) :
    d.unstack ((d.descendants i).length + steps) (i :: rest) =
      (d.unstack steps rest).map (d.descendants i ++ ·) := by
  induction i using Nat.strongRecOn generalizing steps rest with
  | ind i ih =>
      have hkids := @unstack_append_of_forall d (d.node i).children
        (fun c hc => ih c (h i hi c hc).2 (h i hi c hc).1) steps rest
      have hsteps (m : Nat) : m + 1 + steps = m + steps + 1 := by omega
      rw [h.descendants_eq hi, List.length_cons, hsteps, unstack, hkids, Option.map_map]
      rfl

/-- All that lies below a node can be taken from a stack, one node in each step. -/
theorem Stacked.unstack_eq {i : Nat} (hi : n ≤ i) :
    d.unstack (d.descendants i).length [i] = some (d.descendants i) := by
  have hcons := h.unstack_cons hi 0 []
  rwa [Nat.add_zero, unstack, Option.map_some, List.append_nil] at hcons

end stacked

/-! ### Spans in the order of the source -/

theorem Tiles.le_start {d : Document} {start stop : Nat} {ids : List Nat}
    (h : d.Tiles start stop ids) : ∀ id ∈ ids, start ≤ (d.node id).span.start := by
  induction ids generalizing start with
  | nil => exact fun _ hid => absurd hid List.not_mem_nil
  | cons id rest ih =>
      obtain ⟨hstart, hle, hrest⟩ := h
      refine List.forall_mem_cons.mpr ⟨Nat.le_of_eq hstart.symm, fun i hi => ?_⟩
      exact Nat.le_trans hle (ih hrest i hi)

theorem Tiles.pairwise {d : Document} {start stop : Nat} {ids : List Nat}
    (h : d.Tiles start stop ids) :
    ids.Pairwise fun a b => (d.node a).span.stop ≤ (d.node b).span.start := by
  induction ids generalizing start with
  | nil => exact .nil
  | cons id rest ih =>
      obtain ⟨_, _, hrest⟩ := h
      exact .cons hrest.le_start (ih hrest)

/-- The nodes in a node that stands for its span follow one another. -/
theorem Stands.pairwise {s : TagScanner} {d : Document} {source : List Char} {id : Nat}
    (h : d.Stands s source id) :
    (d.node id).children.Pairwise fun a b => (d.node a).span.stop ≤ (d.node b).span.start := by
  have hnone {text : String} (ht : (d.node id).text? = some text) : (d.node id).children = [] := by
    unfold Node.text? at ht
    unfold Node.children
    split at ht <;> simp_all
  cases h with
  | text _ htext | raw _ _ _ _ _ _ _ _ htext =>
      rw [hnone htext]
      exact .nil
  | block _ _ _ _ _ _ _ _ htiles => exact htiles.pairwise

theorem below_of_mem_descendants {d : Document} {i j : Nat} (h : j ∈ d.descendants i) :
    j = i ∨ d.Below i j := by
  induction i using Nat.strongRecOn with
  | ind i ih =>
      rcases mem_descendants.mp h with rfl | ⟨c, hc, hlt, hj⟩
      · exact .inl rfl
      · exact .inr (below_iff.mpr ⟨c, hc, ih c hlt hj⟩)

/-! ### The tree of a text -/

/-- The second document has one more tree than the first one, with the given root, and nothing else
has changed.  The new nodes hold new nodes that came before them, and each of them but the root is
held once and by one node.  Below the root lie exactly the new nodes: taken from a stack, each of
them is met once, after the node that holds it and after those that stand before it there, in the
order of the source. -/
structure Plants (d d' : Document) (root : Nat) : Prop where
  kept : ∀ i < d.size, d'.get? i = d.get? i
  le_root : d.size ≤ root
  size : d'.size = root + 1
  stacked : ∀ i, d.size ≤ i → ∀ c ∈ (d'.node i).children, d.size ≤ c ∧ c < i
  held : ∀ c, d.size ≤ c → c < root →
    ∃ i, d.size ≤ i ∧ i ≤ root ∧ (d'.node i).children.count c = 1 ∧
      ∀ j, d.size ≤ j → c ∈ (d'.node j).children → j = i
  walked : d'.unstack (d'.size - d.size) [root] = some (d'.descendants root)
  once : (d'.descendants root).Perm (List.range' d.size (d'.size - d.size))
  ordered : ∀ i, d.size ≤ i → i ≤ root →
    (i :: (d'.node i).children).Sublist (d'.descendants root)
  follow : ∀ i, d.size ≤ i → i ≤ root →
    (d'.node i).children.Pairwise fun a b => (d'.node a).span.stop ≤ (d'.node b).span.start

section fragment
variable (d : Document) (ps : List Part) (span : Span)

/-- The document with the nodes of a text, not prepared yet. -/
abbrev withFragment : Document :=
  d.append (fragment untouched d.size none ps span)

theorem strand_withFragment :
    Strand d.size none (fragment untouched d.size none ps span) :=
  strand_fragment grounded_untouched d.size none ps span

theorem stacked_fragment : (d.withFragment ps span).Stacked d.size := by
  intro i hi c hc
  rcases children_append (d.strand_withFragment ps span) hc with
    ⟨hlt, _⟩ | ⟨j, k, _, _, rfl, _, _, rfl, hkj, _⟩
  · omega
  · exact ⟨Nat.le_add_right _ _, Nat.add_lt_add_left hkj _⟩

theorem held_fragment {c : Nat} (hc : d.size ≤ c) (hroot : c < d.size + countAll ps) :
    ∃ i, d.size ≤ i ∧ i ≤ d.size + countAll ps ∧
      ((d.withFragment ps span).node i).children.count c = 1 ∧
      ∀ j, d.size ≤ j → c ∈ ((d.withFragment ps span).node j).children → j = i := by
  have hperm := perm_held_fragment grounded_untouched d.size none ps span
  have hnodup := hperm.nodup_iff.mpr (List.nodup_range' 1)
  have hmem := hperm.mem_iff.mpr (List.mem_range'_1.mpr ⟨hc, hroot⟩)
  obtain ⟨i, x, hx, hcount, hunique⟩ := Node.exists_holder hnodup hmem
  obtain ⟨hlt, _⟩ := List.getElem?_eq_some_iff.mp hx
  rw [length_fragment] at hlt
  refine ⟨d.size + i, Nat.le_add_right _ _, by omega, ?_, fun j hj hcj => ?_⟩
  · rw [node_append_right hx, hcount]
  · rcases children_append (d.strand_withFragment ps span) hcj with
      ⟨hlt, _⟩ | ⟨k, _, y, _, rfl, hy, hcy, _⟩
    · omega
    · rw [hunique k y hy hcy]

theorem node_withFragment :
    (d.withFragment ps span).node (d.size + countAll ps) = .root (numbers d.size ps) span := by
  have hroot := (holds_append d (fragment untouched d.size none ps span)).right.node
  rwa [length_runAll] at hroot

theorem perm_descendants_fragment :
    ((d.withFragment ps span).descendants (d.size + countAll ps)).Perm
      (List.range' d.size (countAll ps + 1)) := by
  have hholds := holds_append d (fragment untouched d.size none ps span)
  have hkids := familyAll_of_holds _ d.size (d.size + countAll ps) _ ps (Nat.le_refl _) hholds.left
  rw [descendants, family_of_children, node_withFragment]
  simp only [Node.root, Node.children]
  rw [hkids, List.map_cons, List.range'_1_concat]
  refine List.Perm.trans ?_ List.perm_append_comm
  exact (perm_familyAll d.size _ ps).cons _

theorem pairwise_fragment {s : TagScanner} {source : String} {i : Nat}
    (hi : i ∈ (d.withFragment (s.read source).parts span).descendants
      (d.size + countAll (s.read source).parts)) :
    ((d.withFragment (s.read source).parts span).node i).children.Pairwise fun a b =>
      ((d.withFragment (s.read source).parts span).node a).span.stop ≤
        ((d.withFragment (s.read source).parts span).node b).span.start := by
  have hwrites := prints_read s source _ _ _
    (holds_append d (fragment untouched d.size none (s.read source).parts span)).left
  have hroot := d.node_withFragment (s.read source).parts span
  rcases below_of_mem_descendants hi with rfl | hbelow
  · rw [hroot]
    exact hwrites.tiles.pairwise
  · obtain ⟨child, hchild, hi⟩ := below_iff.mp hbelow
    rw [hroot] at hchild
    have hstands := hwrites.stands [] (List.append_nil _).symm child hchild
    rcases hi with rfl | hi
    · exact hstands.1.pairwise
    · exact (hstands.2 i hi).pairwise

theorem plants_fragment (s : TagScanner) (source : String) :
    d.Plants (d.withFragment (s.read source).parts span)
      (d.size + countAll (s.read source).parts) := by
  generalize hps : (s.read source).parts = ps
  have hstacked := d.stacked_fragment ps span
  have hperm := d.perm_descendants_fragment ps span
  have hsize : (d.withFragment ps span).size = d.size + countAll ps + 1 := by
    rw [size_append, length_fragment, Nat.add_assoc]
  have hnew : (d.withFragment ps span).size - d.size = countAll ps + 1 := by omega
  have hlength := hperm.length_eq
  rw [List.length_range'] at hlength
  have hmem {i : Nat} (hi : d.size ≤ i) (hroot : i ≤ d.size + countAll ps) :
      i ∈ (d.withFragment ps span).descendants (d.size + countAll ps) :=
    hperm.mem_iff.mpr (List.mem_range'_1.mpr ⟨hi, by omega⟩)
  constructor
  case kept => exact fun i hi => get?_append_left hi
  case le_root => exact Nat.le_add_right _ _
  case size => exact hsize
  case stacked => exact hstacked
  case held => exact fun c hc hroot => d.held_fragment ps span hc hroot
  case walked =>
    rw [hnew, ← hlength]
    exact hstacked.unstack_eq (Nat.le_add_right _ _)
  case once =>
    rw [hnew]
    exact hperm
  case ordered =>
    intro i hi hroot
    exact hstacked.sublist_descendants (Nat.le_add_right _ _) (hmem hi hroot)
  case follow =>
    intro i hi hroot
    subst hps
    exact d.pairwise_fragment span (hmem hi hroot)

end fragment

def shifted (d : Document) (n : Nat) : List Node :=
  d.nodes.toList.map (·.renumber ⟨0, n⟩)

theorem shifted_append_empty (ns : List Node) (n : Nat) :
    ((∅ : Document).append ns).shifted n = ns.map (·.renumber ⟨0, n⟩) := by
  have hnodes : ((∅ : Document).append ns).nodes = #[] ++ ns.toArray := rfl
  rw [shifted, hnodes, Array.empty_append]

/-- A text is read as into an empty document, with all numbers shifted, whether it has errors or
not. -/
theorem readFragment_shifted (d : Document) (s : TagScanner) (source : String) :
    d.readFragment s source =
      (d.append (((∅ : Document).readFragment s source).1.shifted d.size),
        ((∅ : Document).readFragment s source).2.map (d.size + ·)) := by
  have hcross := crosses_untouched ⟨0, d.size⟩
  have hsize : (∅ : Document).size + d.size = d.size := Nat.zero_add _
  by_cases herrors : (s.read source).errors = []
  · have hrun := fragment_renumber hcross (Nat.zero_le (∅ : Document).size) none
      (s.read source).parts ⟨0, source.utf8ByteSize⟩
    dsimp only at hrun
    rw [hsize] at hrun
    rw [readFragment_of_no_errors d none herrors, readFragment_of_no_errors ∅ none herrors,
      shifted_append_empty, ← hrun]
    refine congrArg (Prod.mk _) (congrArg Except.ok ?_)
    rw [show (∅ : Document).size = 0 from rfl, Nat.zero_add]
  · have hrun := runAll_renumber hcross (Nat.zero_le (∅ : Document).size) none
      (s.read source).parts
    dsimp only at hrun
    rw [hsize] at hrun
    rw [readFragment_of_errors d herrors, readFragment_of_errors ∅ herrors,
      shifted_append_empty, ← hrun]
    rfl

/-- Reading a text without errors adds one tree to a document: the nodes so far stay as they are,
the root is the last node, every new node holds earlier new nodes, each of them but the root is held
once and by one of them, and the nodes below the root are exactly the new ones, each of them met
once, parents before children and siblings in the order of the source.  The same tree is read into
an empty document, but for the numbers, which are shifted.  This holds for all tags and
delimiters. -/
theorem readFragment_plants {s : TagScanner} {d d' : Document} {source : String} {root : Nat}
    (h : d.readFragment s source = (d', .ok root)) :
    d.Plants d' root ∧
      ∃ e r, (∅ : Document).readFragment s source = (e, .ok r) ∧ root = d.size + r ∧
        d' = d.append (e.shifted d.size) := by
  have herrors : (s.read source).errors = [] := by
    by_contra hne
    rw [readFragment_of_errors d hne] at h
    cases h
  have hshifted := readFragment_shifted d s source
  rw [h, readFragment_of_no_errors ∅ none herrors] at hshifted
  rw [readFragment_of_no_errors d none herrors] at h
  cases h
  have hroot := Except.ok.inj (congrArg Prod.snd hshifted)
  exact ⟨d.plants_fragment _ s source, _, _, readFragment_of_no_errors ∅ none herrors, hroot,
    congrArg Prod.fst hshifted⟩

/-- The text `a{#await}b{$y}c{/await}d`, read behind one node. -/
theorem readFragment_plants_awaitingScript :
    let d : Document := (∅ : Document).push (.literal "z" ⟨0, 1⟩)
    ∃ d' root, d.readFragment .builtin (.ofList awaitingScript.print) = (d', .ok root) ∧
      root = 7 ∧ d.Plants d' root ∧
      ∃ e r, (∅ : Document).readFragment .builtin (.ofList awaitingScript.print) = (e, .ok r) ∧
        root = d.size + r ∧ d' = d.append (e.shifted d.size) := by
  intro d
  have hread := TagScanner.read_print awaitingScript
  have h := readFragment_of_no_errors d none (congrArg Reading.errors hread)
  have hroot : d.size
      + countAll (TagScanner.builtin.read (.ofList awaitingScript.print)).parts = 7 := by
    rw [hread]
    decide
  exact ⟨_, _, h, hroot, readFragment_plants h⟩

end Document

end TagTemplate
