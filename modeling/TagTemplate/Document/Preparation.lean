import TagTemplate.Document.Basic

/-! # Preparation

After a fragment is read, preparers visit its nodes once, parents before children.  A node is
closed after its preparation, and a closed node is left alone. -/

namespace TagTemplate

/-- What a fragment takes over from the place where it stands. -/
structure Surroundings where
  parent : Option Nat := none
  inherited : Scope := ∅
  paths : SearchPaths := ∅
  bubble : Bool := false
deriving Inhabited

/-- A step of preparation.  It looks after the nodes whose tag or kind it supports, after all
nodes if it names none, and changes the node by what surrounds the fragment and the node's
parent. -/
structure Preparer where
  name : String
  supported : List String := []
  prepare : Surroundings → Option Nat → Node → Node

namespace Preparer

/-- The preparer looks after the node. -/
def supports (p : Preparer) (n : Node) : Bool :=
  p.supported.isEmpty || p.supported.contains n.tag || p.supported.contains n.kind.name

/-- Binds the inherited variables at the root of a fragment. -/
def scopes : Preparer where
  name := "variables"
  supported := ["root"]
  prepare around _ n := { n with scope := n.scope.extend around.inherited }

/-- Gives a node without search paths those in use. -/
def paths : Preparer where
  name := "paths"
  prepare around _ n := if n.paths.isEmpty then { n with paths := around.paths } else n

/-- Sets the parent of a node that has none. -/
def hierarchy : Preparer where
  name := "hierarchy"
  prepare _ parent n := { n with parent := n.parent <|> parent }

/-- Decides whether the events of a node are reported. -/
def events : Preparer where
  name := "events"
  prepare around _ n := { n with subscribed := around.bubble }

/-- The preparers known from the start, in their order. -/
def builtins : List Preparer :=
  [scopes, paths, hierarchy, events]

end Preparer

namespace Node

/-- The node after all preparers that look after it. -/
def preparedBy (preparers : List Preparer) (around : Surroundings) (parent : Option Nat)
    (n : Node) : Node :=
  preparers.foldl (fun n p => if p.supports n then p.prepare around parent n else n) n

/-- The node after its preparation, closed. -/
def prepared (preparers : List Preparer) (around : Surroundings) (parent : Option Nat)
    (n : Node) : Node :=
  if n.closed then n else { n.preparedBy preparers around parent with closed := true }

end Node

namespace Document

/-- The document with a node and all below it prepared. -/
def prepare (d : Document) (preparers : List Preparer) (root : Nat) (around : Surroundings) :
    Document :=
  (d.family around.parent root).foldl
    (fun d e => d.update e.1 (Node.prepared preparers around e.2)) d

end Document

end TagTemplate
