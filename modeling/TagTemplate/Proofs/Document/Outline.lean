import TagTemplate.Proofs.Document.Nodes

/-! # Outlines of documents

The outline of a node is the tree below it without the numbers of nodes, their spans and what
rendering adds to them.  The nodes that a fragment appends to a document have the outlines of the
parts of its text (`outline_of_holds`). -/

namespace TagTemplate

/-- A node with its tag, its kind, its body, the text between its tags, its own text and the nodes
below it. -/
inductive Outline where
  | node (tag : String) (kind : NodeKind) (body : String) (source text : Option String)
      (children : List Outline)

namespace Part

mutual

/-- The outline of a part. -/
def outline : Part → Outline
  | .literal text _ => .node "" .literal "" none (some text) []
  | .leaf tag body matched _ => .node tag.name tag.kind body none (some matched) []
  | .raw tag body inside _ => .node tag.name tag.kind body (some inside) (some inside) []
  | .block tag body inside parts _ =>
    .node tag.name tag.kind body (some inside) none (outlineAll parts)

/-- The outlines of a list of parts. -/
def outlineAll : List Part → List Outline
  | [] => []
  | p :: rest => p.outline :: outlineAll rest

end

theorem outlineAll_append (ps qs : List Part) :
    outlineAll (ps ++ qs) = outlineAll ps ++ outlineAll qs := by
  induction ps with
  | nil => rfl
  | cons p rest ih => rw [List.cons_append, outlineAll, ih, outlineAll, List.cons_append]

end Part

namespace Document

open TagTemplate.Part

/-- The outline of a node.  A node holds only nodes that came before it. -/
def outline (d : Document) (id : Nat) : Outline :=
  let n := d.node id
  .node n.tag n.kind n.body n.source n.text? <| n.children.flatMap fun child =>
    if _h : child < id then [d.outline child] else []
termination_by id

theorem outline_of_node {d : Document} {id : Nat} {n : Node} (h : d.node id = n) :
    d.outline id = .node n.tag n.kind n.body n.source n.text?
      (n.children.flatMap fun child => if child < id then [d.outline child] else []) := by
  rw [Document.outline, h]
  simp

mutual

theorem outline_of_holds (d : Document) (n : Nat) (q : Option Nat) (p : Part)
    (h : d.Holds n (run untouched n q p)) : d.outline (n + p.count - 1) = p.outline := by
  cases p with
  | block tag body inside parts span =>
      have hn := h.right.node
      rw [length_runAll] at hn
      have hid : n + (Part.block tag body inside parts span).count - 1 = n + countAll parts := by
        simp only [count]; omega
      rw [hid, outline_of_node hn, Part.outline]
      exact congrArg _ (outlineAll_of_holds d n _ _ parts (Nat.le_refl _) h.left)
  | literal text span => exact outline_of_node h.node
  | leaf tag body matched span => exact outline_of_node h.node
  | raw tag body inside span => exact outline_of_node h.node

theorem outlineAll_of_holds (d : Document) (n id : Nat) (q : Option Nat) (ps : List Part)
    (hid : n + countAll ps ≤ id) (h : d.Holds n (runAll untouched n q ps)) :
    (numbers n ps).flatMap (fun child => if child < id then [d.outline child] else [])
      = outlineAll ps := by
  cases ps with
  | nil => rfl
  | cons p rest =>
      have hpos := p.count_pos
      rw [countAll] at hid
      rw [runAll] at h
      have hrest := h.right
      rw [length_run] at hrest
      rw [numbers, List.flatMap_cons, if_pos (by omega), outlineAll,
        outline_of_holds d n q p h.left,
        outlineAll_of_holds d (n + p.count) id q rest (by omega) hrest, List.singleton_append]

end

/-- The root of a fragment read has the outlines of the parts of its text. -/
theorem outline_readFragment {s : TagScanner} {source : String} (d : Document)
    (h : (s.read source).errors = []) : ∃ d' id,
      d.readFragment s source = (d', .ok id) ∧
      d'.outline id = .node "" .root "" none none (outlineAll (s.read source).parts) ∧
      ∀ i < d.size, d'.get? i = d.get? i := by
  refine ⟨_, _, readFragment_of_no_errors d none h, ?_, fun i hi => get?_append_left hi⟩
  have hholds := holds_append d (fragment untouched d.size none (s.read source).parts
    ⟨0, source.utf8ByteSize⟩)
  have hroot := hholds.right.node
  rw [length_runAll] at hroot
  rw [outline_of_node hroot]
  exact congrArg _ (outlineAll_of_holds _ _ _ _ _ (Nat.le_refl _) hholds.left)

end Document

end TagTemplate
