import TagTemplate.Proofs.Document.Tree

/-! # Documents that are heard or not

Whether the events of nodes are reported is the same for a whole document when its fragments are
prepared under one setting.  Nothing else in a document depends on it.

* `Document.hear`: the document with the events of all nodes reported, or none.
* `Part.fragment_hear`: a fragment prepared under the other setting.
* `Document.lookup?_hear`, `Document.nearestContainer?_hear`: what is seen from a node. -/

namespace TagTemplate

/-- The node with its events reported, or not. -/
def Node.hear (b : Bool) (n : Node) : Node :=
  { n with subscribed := b }

namespace Node

@[simp] theorem hear_kind (b : Bool) (n : Node) : (n.hear b).kind = n.kind :=
  rfl

@[simp] theorem hear_tag (b : Bool) (n : Node) : (n.hear b).tag = n.tag :=
  rfl

@[simp] theorem hear_attributes (b : Bool) (n : Node) : (n.hear b).attributes = n.attributes :=
  rfl

@[simp] theorem hear_children (b : Bool) (n : Node) : (n.hear b).children = n.children :=
  rfl

@[simp] theorem hear_text? (b : Bool) (n : Node) : (n.hear b).text? = n.text? :=
  rfl

@[simp] theorem hear_parent (b : Bool) (n : Node) : (n.hear b).parent = n.parent :=
  rfl

@[simp] theorem hear_scope (b : Bool) (n : Node) : (n.hear b).scope = n.scope :=
  rfl

@[simp] theorem hear_container (b : Bool) (n : Node) : (n.hear b).container = n.container :=
  rfl

@[simp] theorem hear_paths (b : Bool) (n : Node) : (n.hear b).paths = n.paths :=
  rfl

@[simp] theorem hear_givenName (b : Bool) (n : Node) : (n.hear b).givenName = n.givenName :=
  rfl

/-- Preparation decides last whether the events of a fresh node are reported. -/
theorem prepared_hear (around : Surroundings) (b : Bool) (parent : Option Nat) {n : Node}
    (h : n.closed = false) :
    n.prepared Preparer.builtins { around with bubble := b } parent
      = (n.prepared Preparer.builtins around parent).hear b := by
  rw [prepared, prepared, h]
  rfl

end Node

/-! ### Fragments -/

namespace Part

/-- The second change of a fresh node is the first one, followed by `k`. -/
def Follows (k : Node → Node) (f f' : Option Nat → Node → Node) : Prop :=
  ∀ q n, n.closed = false → f' q n = k (f q n)

variable {f f' : Option Nat → Node → Node} {k : Node → Node}

theorem own_closed (n : Nat) (p : Part) : (own n p).closed = false := by
  cases p <;> rfl

mutual

theorem run_map (h : Follows k f f') (n : Nat) (q : Option Nat) (p : Part) :
    run f' n q p = (run f n q p).map k := by
  have hown := h q (own n p) (own_closed n p)
  cases p with
  | block tag body inside parts span =>
      rw [run, run, hown, runAll_map h, List.map_append]
      rfl
  | literal text span => rw [run, run, hown]; rfl
  | leaf tag body matched span => rw [run, run, hown]; rfl
  | raw tag body inside span => rw [run, run, hown]; rfl

theorem runAll_map (h : Follows k f f') (n : Nat) (q : Option Nat) (ps : List Part) :
    runAll f' n q ps = (runAll f n q ps).map k := by
  cases ps with
  | nil => rfl
  | cons p rest => rw [runAll, runAll, run_map h, runAll_map h, List.map_append]

end

theorem fragment_map (h : Follows k f f') (n : Nat) (q : Option Nat) (ps : List Part)
    (span : Span) : fragment f' n q ps span = (fragment f n q ps span).map k := by
  rw [fragment, fragment, runAll_map h, h q (.root (numbers n ps) span) rfl, List.map_append]
  rfl

/-- A fragment prepared under the other setting is the same one, heard or not. -/
theorem fragment_hear (around : Surroundings) (b : Bool) (n : Nat) (q : Option Nat)
    (ps : List Part) (span : Span) :
    fragment (Node.prepared Preparer.builtins { around with bubble := b }) n q ps span
      = (fragment (Node.prepared Preparer.builtins around) n q ps span).map (Node.hear b) :=
  fragment_map (fun q _ h => Node.prepared_hear around b q h) n q ps span

end Part

/-! ### Documents -/

namespace Document

/-- The document with the events of all nodes reported, or none. -/
def hear (b : Bool) (d : Document) : Document :=
  ⟨d.nodes.map (Node.hear b)⟩

variable (d : Document) (b : Bool)

@[simp] theorem size_hear : (d.hear b).size = d.size := by
  simp [hear, size]

theorem get?_hear (i : Nat) : (d.hear b).get? i = (d.get? i).map (Node.hear b) := by
  simp [hear, get?]

theorem node_hear {i : Nat} (h : i < d.size) : (d.hear b).node i = (d.node i).hear b := by
  obtain ⟨n, hn⟩ : ∃ n, d.get? i = some n := ⟨_, Array.getElem?_eq_getElem h⟩
  rw [node, node, get?_hear, hn]
  rfl

theorem of_node_hear {α : Type} {f : Node → α} (hf : ∀ n, f (n.hear b) = f n) (i : Nat) :
    f ((d.hear b).node i) = f (d.node i) := by
  rcases Nat.lt_or_ge i d.size with hi | hi
  · rw [node_hear d b hi, hf]
  · rw [node_of_size_le hi, node_of_size_le (by rwa [size_hear])]

theorem hear_empty : (∅ : Document).hear b = ∅ :=
  congrArg mk Array.map_empty

theorem hear_append (ns : List Node) :
    (d.append ns).hear b = (d.hear b).append (ns.map (Node.hear b)) := by
  refine ext_get? fun i => ?_
  rw [get?_hear, get?_append, get?_append, size_hear]
  split
  · rw [get?_hear]
  · rw [List.getElem?_map]

theorem hear_update (id : Nat) {f f' : Node → Node} (h : ∀ n, (f n).hear b = f' (n.hear b)) :
    (d.update id f).hear b = (d.hear b).update id f' := by
  refine ext_get? fun i => ?_
  rw [get?_hear, get?_update, get?_update, get?_hear]
  split
  · rw [Option.map_map, Option.map_map]
    exact congrArg (fun g => (d.get? i).map g) (funext h)
  · rfl

theorem hear_setContainer (id : Nat) (c : Container) :
    (d.setContainer id c).hear b = (d.hear b).setContainer id c :=
  hear_update d b id fun _ => rfl

@[simp] theorem ancestors_hear (id : Nat) : (d.hear b).ancestors id = d.ancestors id := by
  have hwithin (count : Nat) :
      ∀ id, (d.hear b).ancestorsWithin count id = d.ancestorsWithin count id := by
    induction count with
    | zero => exact fun _ => rfl
    | succ count ih =>
        intro id
        rw [ancestorsWithin, ancestorsWithin, of_node_hear d b (Node.hear_parent b) id]
        cases (d.node id).parent with
        | none => rfl
        | some p => exact congrArg (id :: ·) (ih p)
  rw [ancestors, ancestors, size_hear, hwithin]

@[simp] theorem lookup?_hear (id : Nat) (name : String) :
    (d.hear b).lookup? id name = d.lookup? id name := by
  unfold lookup?
  rw [ancestors_hear]
  refine congrArg (fun f => List.findSome? f (d.ancestors id)) (funext fun a => ?_)
  rw [of_node_hear d b (Node.hear_scope b)]

@[simp] theorem nearestContainer?_hear (id : Nat) :
    (d.hear b).nearestContainer? id = d.nearestContainer? id := by
  unfold nearestContainer?
  rw [ancestors_hear]
  refine congrArg (fun p => List.find? p (d.ancestors id)) (funext fun a => ?_)
  rw [of_node_hear d b (Node.hear_container b)]

end Document

end TagTemplate
