import TagTemplate.Document.Node

/-! # Documents

A document is a growing sequence of nodes, known by their numbers.  A node names the nodes it
holds, and after preparation its parent.

* `lookup?` finds a variable in the scopes from a node up to its last ancestor.
* `descendants` lists a node and all below it, parents before children. -/

namespace TagTemplate

/-- A sequence of nodes. -/
structure Document where
  nodes : Array Node := #[]
deriving Inhabited

namespace Document

instance : EmptyCollection Document := ⟨⟨#[]⟩⟩

def size (d : Document) : Nat :=
  d.nodes.size

def get? (d : Document) (id : Nat) : Option Node :=
  d.nodes[id]?

/-- The node of a number, an empty root where there is none. -/
def node (d : Document) (id : Nat) : Node :=
  (d.get? id).getD (.root [] ⟨0, 0⟩)

/-- The document with one more node, whose number is the size so far. -/
def push (d : Document) (n : Node) : Document :=
  ⟨d.nodes.push n⟩

/-- The document with one node changed. -/
def update (d : Document) (id : Nat) (f : Node → Node) : Document :=
  ⟨d.nodes.modify id f⟩

@[simp] theorem size_push (d : Document) (n : Node) : (d.push n).size = d.size + 1 := by
  simp [push, size]

@[simp] theorem size_update (d : Document) (id : Nat) (f : Node → Node) :
    (d.update id f).size = d.size := by
  simp [update, size]

theorem get?_push (d : Document) (n : Node) (id : Nat) :
    (d.push n).get? id = if id = d.size then some n else d.get? id := by
  exact Array.getElem?_push

theorem get?_update (d : Document) (id : Nat) (f : Node → Node) (other : Nat) :
    (d.update id f).get? other
      = if id = other then (d.get? other).map f else d.get? other := by
  simp [update, get?, Array.getElem?_modify]

/-! ### Changes of one node -/

/-- The document with the parent of a node set, unless it has one. -/
def setParent (d : Document) (id parent : Nat) : Document :=
  d.update id fun n => { n with parent := n.parent <|> some parent }

/-- Sets the parent of a node, unless it has one: whether it is set now, and the document. -/
def attach (d : Document) (id parent : Nat) : Bool × Document :=
  ((d.node id).parent.isNone, d.setParent id parent)

/-- The document with a variable bound in the scope of a node. -/
def bind (d : Document) (id : Nat) (name : String) (value : Value) : Document :=
  d.update id fun n => { n with scope := n.scope.insert name value }

/-- The document with the scope of a node replaced. -/
def setScope (d : Document) (id : Nat) (scope : Scope) : Document :=
  d.update id fun n => { n with scope }

/-- The document with the container of a node changed. -/
def setContainer (d : Document) (id : Nat) (c : Container) : Document :=
  d.update id fun n => { n with container := some c }

/-! ### Ancestors -/

/-- A node and its ancestors, the nearest first, `count` of them at most. -/
def ancestorsWithin (d : Document) : Nat → Nat → List Nat
  | 0, _ => []
  | count + 1, id =>
    id :: match (d.node id).parent with
      | some parent => ancestorsWithin d count parent
      | none => []

/-- A node and its ancestors, the nearest first. -/
def ancestors (d : Document) (id : Nat) : List Nat :=
  d.ancestorsWithin d.size id

/-- The value of a name in the first scope that has one, from a node upwards. -/
def lookup? (d : Document) (id : Nat) (name : String) : Option Value :=
  (d.ancestors id).findSome? fun a => (d.node a).scope.get? name

/-- The nearest container at or above a node. -/
def nearestContainer? (d : Document) (id : Nat) : Option Nat :=
  (d.ancestors id).find? fun a => (d.node a).container.isSome

/-! ### Descendants -/

/-- A node and all below it with their parents, parents before children.  A node holds only nodes
that came before it. -/
def family (d : Document) (parent : Option Nat) (id : Nat) : List (Nat × Option Nat) :=
  (id, parent) :: (d.node id).children.flatMap fun child =>
    if _h : child < id then d.family (some id) child else []
termination_by id

/-- A node and all below it, parents before children. -/
def descendants (d : Document) (id : Nat) : List Nat :=
  (d.family none id).map (·.1)

end Document

end TagTemplate
