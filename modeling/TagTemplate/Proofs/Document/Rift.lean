import TagTemplate.Generator
import TagTemplate.Proofs.Document.Tree

/-! # Documents with a rift

Two documents can hold the same nodes although one of them has nodes in between that the other
lacks.  The numbers behind this rift differ, and with them the links between the nodes.

* `Part.fragment_renumber`: the nodes of a fragment behind a rift are those before it, renumbered.
* `Document.Spread`: the second document is the first one with a rift.
* `Spread.lookup?`: the variables seen from a node are the same in both. -/

namespace TagTemplate

/-! ### Numbers -/

/-- Room for the nodes that only one of two documents has: `width` numbers from `start` on. -/
structure Rift where
  start : Nat
  width : Nat

namespace Rift

variable (g : Rift) {i j : Nat}

/-- The number that a node has where the rift is. -/
def across (i : Nat) : Nat :=
  if i < g.start then i else i + g.width

theorem across_of_lt (h : i < g.start) : g.across i = i :=
  if_pos h

theorem across_of_le (h : g.start ≤ i) : g.across i = i + g.width :=
  if_neg (Nat.not_lt.mpr h)

theorem across_lt_across : g.across i < g.across j ↔ i < j := by
  unfold across
  split <;> split <;> omega

theorem across_inj : g.across i = g.across j ↔ i = j := by
  unfold across
  split <;> split <;> omega

end Rift

/-! ### Nodes -/

section nodes
variable (g : Rift)

/-- What a node holds, its numbers taken over the rift. -/
def Content.renumber : Content → Content
  | .text s => .text s
  | .children ids => .children (ids.map g.across)

/-- The node with its links taken over the rift. -/
def Node.renumber (n : Node) : Node :=
  { n with parent := n.parent.map g.across, content := n.content.renumber g }

namespace Node

@[simp] theorem renumber_children (n : Node) : (n.renumber g).children = n.children.map g.across := by
  obtain ⟨_, _, _, _, _, content, _⟩ := n
  cases content <;> rfl

@[simp] theorem renumber_text? (n : Node) : (n.renumber g).text? = n.text? := by
  obtain ⟨_, _, _, _, _, content, _⟩ := n
  cases content <;> rfl

@[simp] theorem renumber_attributes (n : Node) : (n.renumber g).attributes = n.attributes :=
  rfl

@[simp] theorem renumber_givenName (n : Node) : (n.renumber g).givenName = n.givenName :=
  rfl

@[simp] theorem renumber_paths (n : Node) : (n.renumber g).paths = n.paths :=
  rfl

@[simp] theorem renumber_scope (n : Node) : (n.renumber g).scope = n.scope :=
  rfl

@[simp] theorem renumber_kind (n : Node) : (n.renumber g).kind = n.kind :=
  rfl

@[simp] theorem renumber_tag (n : Node) : (n.renumber g).tag = n.tag :=
  rfl

@[simp] theorem renumber_parent (n : Node) : (n.renumber g).parent = n.parent.map g.across :=
  rfl

theorem renumber_of_lt {n : Node} (hp : ∀ p, n.parent = some p → p < g.start)
    (hc : ∀ c ∈ n.children, c < g.start) : n.renumber g = n := by
  have hparent : n.parent.map g.across = n.parent := by
    cases h : n.parent with
    | none => rfl
    | some p => exact congrArg some (g.across_of_lt (hp p h))
  have hcontent : n.content.renumber g = n.content := by
    cases h : n.content with
    | text s => rfl
    | children ids =>
        refine congrArg Content.children ?_
        conv => rhs; rw [← List.map_id ids]
        refine List.map_congr_left fun c hmem => g.across_of_lt (hc c ?_)
        rwa [children, h]
  rw [renumber, hparent, hcontent]

end Node

end nodes

/-! ### Steps that do not see numbers -/

/-- Preparing a node comes to the same on both sides of a rift. -/
def Preparer.IsBlind (p : Preparer) : Prop :=
  ∀ (g : Rift) (around : Surroundings) (parent : Option Nat) (n : Node),
    p.prepare { around with parent := around.parent.map g.across } (parent.map g.across)
      (n.renumber g) = (p.prepare around parent n).renumber g

theorem Generator.eq_of_builtins {name : String} {f : Generator}
    (h : builtins.get? name = some f) : f = lorem ∨ f = placeholder := by
  have hbuiltins : builtins = ((∅ : NameMap Generator).insert "lorem" lorem).insert
      "placeholder" placeholder := rfl
  rw [hbuiltins, NameMap.get?_insert, NameMap.get?_insert] at h
  split at h
  · cases h
    exact .inr rfl
  · split at h
    · cases h
      exact .inl rfl
    · cases h

/-- The text made up for a node does not depend on a rift. -/
def Generator.IsBlind (f : Generator) : Prop :=
  ∀ (g : Rift) (n : Node), f (n.renumber g) = f n

theorem Preparer.isBlind_of_mem_builtins {p : Preparer} (h : p ∈ Preparer.builtins) :
    p.IsBlind := by
  simp only [builtins, List.mem_cons, List.not_mem_nil, or_false] at h
  intro g around parent n
  rcases h with rfl | rfl | rfl | rfl
  · rfl
  · simp only [Preparer.paths, Node.renumber]
    split <;> rfl
  · simp only [hierarchy, Node.renumber]
    cases n.parent <;> rfl
  · rfl

/-- The change of nodes, given their parents, comes to the same on both sides of a rift. -/
def Crosses (g : Rift) (f f' : Option Nat → Node → Node) : Prop :=
  ∀ q n, f' (q.map g.across) (n.renumber g) = (f q n).renumber g

theorem crosses_untouched (g : Rift) : Crosses g Document.untouched Document.untouched :=
  fun _ _ => rfl

theorem Node.crosses_prepared {preparers : List Preparer} (h : ∀ p ∈ preparers, p.IsBlind)
    (g : Rift) (around : Surroundings) :
    Crosses g (Node.prepared preparers around)
      (Node.prepared preparers { around with parent := around.parent.map g.across }) := by
  have hall (q : Option Nat) (n : Node) :
      (n.renumber g).preparedBy preparers { around with parent := around.parent.map g.across }
        (q.map g.across) = (n.preparedBy preparers around q).renumber g := by
    induction preparers generalizing n with
    | nil => rfl
    | cons p rest ih =>
        have hp := h p List.mem_cons_self
        have hsupports : p.supports (n.renumber g) = p.supports n := rfl
        have hrest := ih fun q hq => h q (List.mem_cons_of_mem p hq)
        simp only [preparedBy, List.foldl_cons, hsupports] at hrest ⊢
        rw [← hrest]
        split
        · rw [hp]
        · rfl
  intro q n
  unfold Node.prepared
  have hclosed : (n.renumber g).closed = n.closed := rfl
  rw [hclosed, hall]
  split <;> rfl

/-! ### Fragments -/

namespace Part

variable {g : Rift} {f f' : Option Nat → Node → Node}

theorem numbers_renumber {n : Nat} (hn : g.start ≤ n) (ps : List Part) :
    numbers (n + g.width) ps = (numbers n ps).map g.across := by
  induction ps generalizing n with
  | nil => rfl
  | cons p rest ih =>
      have hpos := p.count_pos
      rw [numbers, numbers, List.map_cons, ← ih (by omega), g.across_of_le (by omega)]
      congr 1
      · omega
      · congr 1
        omega

theorem own_renumber {n : Nat} (hn : g.start ≤ n) (p : Part) :
    own (n + g.width) p = (own n p).renumber g := by
  cases p with
  | block tag body inside parts span =>
      rw [own, own, numbers_renumber hn]
      rfl
  | literal text span => rfl
  | leaf tag body matched span => rfl
  | raw tag body inside span => rfl

mutual

theorem run_renumber (h : Crosses g f f') {n : Nat} (hn : g.start ≤ n) (q : Option Nat)
    (p : Part) : run f' (n + g.width) (q.map g.across) p = (run f n q p).map (·.renumber g) := by
  have hown := own_renumber hn p
  cases p with
  | block tag body inside parts span =>
      have hblock : some (n + g.width + countAll parts)
          = (some (n + countAll parts)).map g.across := by
        rw [Option.map_some, g.across_of_le (by omega)]
        congr 1
        omega
      rw [run, run, hown, h, hblock, runAll_renumber h hn, List.map_append]
      rfl
  | literal text span => rw [run, run, hown, h]; rfl
  | leaf tag body matched span => rw [run, run, hown, h]; rfl
  | raw tag body inside span => rw [run, run, hown, h]; rfl

theorem runAll_renumber (h : Crosses g f f') {n : Nat} (hn : g.start ≤ n) (q : Option Nat)
    (ps : List Part) :
    runAll f' (n + g.width) (q.map g.across) ps = (runAll f n q ps).map (·.renumber g) := by
  cases ps with
  | nil => rfl
  | cons p rest =>
      have hnext : n + g.width + p.count = n + p.count + g.width := by omega
      rw [runAll, runAll, run_renumber h hn, hnext, runAll_renumber h (by omega), List.map_append]

end

theorem fragment_renumber (h : Crosses g f f') {n : Nat} (hn : g.start ≤ n) (q : Option Nat)
    (ps : List Part) (span : Span) :
    fragment f' (n + g.width) (q.map g.across) ps span
      = (fragment f n q ps span).map (·.renumber g) := by
  have hroot : some (n + g.width + countAll ps) = (some (n + countAll ps)).map g.across := by
    rw [Option.map_some, g.across_of_le (by omega)]
    congr 1
    omega
  have hown : Node.root (numbers (n + g.width) ps) span
      = (Node.root (numbers n ps) span).renumber g := by
    rw [numbers_renumber hn]
    rfl
  rw [fragment, fragment, hroot, runAll_renumber h hn, hown, h, List.map_append]
  rfl

end Part

/-! ### Documents -/

namespace Document

/-- The second document is the first one with a rift among its nodes. -/
structure Spread (g : Rift) (d e : Document) : Prop where
  start_le : g.start ≤ d.size
  size : e.size = d.size + g.width
  node (i : Nat) : e.node (g.across i) = (d.node i).renumber g

namespace Spread

variable {g : Rift} {d e : Document}

theorem across_lt (h : d.Spread g e) {id : Nat} (hid : id < d.size) : g.across id < e.size := by
  have := h.start_le
  have := h.size
  unfold Rift.across
  split <;> omega

/-- The rift opens at the end of a document whose nodes know each other only. -/
theorem of_prefix (hd : d.Sound) (hle : d.size ≤ e.size)
    (hnode : ∀ i < d.size, e.node i = d.node i) : d.Spread ⟨d.size, e.size - d.size⟩ e := by
  refine ⟨Nat.le_refl _, by dsimp only; omega, fun i => ?_⟩
  rcases Nat.lt_or_ge i d.size with hi | hi
  · rw [Rift.across_of_lt _ hi, hnode i hi, Node.renumber_of_lt]
    · exact fun p hp => hd.parent_lt hi hp
    · exact fun c hc => hd.lt_size_of_child hi hc
  · rw [Rift.across_of_le _ hi, node_of_size_le hi, node_of_size_le (by dsimp only; omega)]
    rfl

/-- Nodes before the rift that have links before it only are the same in both documents. -/
theorem node_eq (h : d.Spread g e) {i : Nat} (hi : i < g.start)
    (hp : ∀ p, (d.node i).parent = some p → p < g.start)
    (hc : ∀ c ∈ (d.node i).children, c < g.start) : e.node i = d.node i := by
  rw [← Node.renumber_of_lt g hp hc, ← h.node, g.across_of_lt hi]

theorem update (h : d.Spread g e) (id : Nat) {f f' : Node → Node}
    (hf : ∀ n, f' (n.renumber g) = (f n).renumber g) :
    (d.update id f).Spread g (e.update (g.across id) f') := by
  refine ⟨by rw [size_update]; exact h.start_le, by rw [size_update, size_update]; exact h.size,
    fun i => ?_⟩
  rcases Nat.lt_or_ge i d.size with hi | hi
  · rw [node_update _ _ _ _ hi, node_update _ _ _ _ (h.across_lt hi)]
    by_cases heq : id = i
    · rw [if_pos heq, if_pos (congrArg g.across heq), h.node, hf]
    · rw [if_neg heq, if_neg (mt g.across_inj.mp heq), h.node]
  · have hover := g.across_of_le (Nat.le_trans h.start_le hi)
    have hsize := h.size
    rw [node_of_size_le (d := d.update id f) (by rw [size_update]; exact hi),
      node_of_size_le (by rw [size_update]; omega)]
    rfl

theorem append (h : d.Spread g e) (ns : List Node) :
    (d.append ns).Spread g (e.append (ns.map (·.renumber g))) := by
  have hsize := h.size
  have hstart := h.start_le
  refine ⟨by rw [size_append]; omega, by simp only [size_append, List.length_map]; omega,
    fun i => ?_⟩
  rcases Nat.lt_or_ge i d.size with hi | hi
  · rw [node_append_left hi, node_append_left (h.across_lt hi), h.node]
  · obtain ⟨k, rfl⟩ : ∃ k, i = d.size + k := ⟨i - d.size, by omega⟩
    have hover : g.across (d.size + k) = e.size + k := by
      rw [g.across_of_le (by omega)]
      omega
    rw [hover]
    cases hx : ns[k]? with
    | some x =>
        rw [node_append_right hx, node_append_right (n := x.renumber g)]
        rw [List.getElem?_map, hx]
        rfl
    | none =>
        have hlen := List.getElem?_eq_none_iff.mp hx
        have hlen' : (ns.map (·.renumber g)).length ≤ k := by rwa [List.length_map]
        rw [node_of_size_le (by rw [size_append]; omega),
          node_of_size_le (by rw [size_append]; omega)]
        rfl

/-! What is seen from a node. -/

variable (h : d.Spread g e) (hd : d.Sound) (he : e.Sound) {id : Nat} (hid : id < d.size)
include h hd he hid

theorem ancestors : e.ancestors (g.across id) = (d.ancestors id).map g.across := by
  refine hd.parent_induction
    (P := fun id => e.ancestors (g.across id) = (d.ancestors id).map g.across) ?_ id hid
  intro id hid ih
  rw [he.ancestors_eq_cons (h.across_lt hid), hd.ancestors_eq_cons hid, h.node,
    Node.renumber_parent, List.map_cons]
  congr 1
  cases hp : (d.node id).parent with
  | none => rfl
  | some p => exact ih p hp

theorem lookup? (name : String) : e.lookup? (g.across id) name = d.lookup? id name := by
  unfold Document.lookup?
  rw [h.ancestors hd he hid, List.findSome?_map]
  refine congrArg (fun f => List.findSome? f (d.ancestors id)) (funext fun a => ?_)
  rw [Function.comp_apply, h.node]
  rfl

theorem nearestContainer? :
    e.nearestContainer? (g.across id) = (d.nearestContainer? id).map g.across := by
  unfold Document.nearestContainer?
  rw [h.ancestors hd he hid, List.find?_map]
  refine congrArg (fun p => (List.find? p (d.ancestors id)).map g.across) (funext fun a => ?_)
  rw [Function.comp_apply, h.node]
  rfl

end Spread

end Document

end TagTemplate
