import TagTemplate.Attribute.Grammar
import TagTemplate.Document.Kind
import TagTemplate.Scope
import TagTemplate.Tag.Definition

/-! # Nodes

A node of a document is literal text, the root of a fragment, or a tag with its attributes.  It
keeps the variables bound in its block, and what the preparation of its fragment gave it. -/

namespace TagTemplate

/-- What a node holds: text, or other nodes by their numbers. -/
inductive Content where
  | text (s : String)
  | children (ids : List Nat)
deriving DecidableEq, Repr, Inhabited

/-- The directories of each named search root. -/
abbrev SearchPaths := NameMap (List String)

namespace SearchPaths

def directories (p : SearchPaths) (root : String) : List String :=
  (p.get? root).getD []

end SearchPaths

/-- The slots of a page, and the layout that it asks for. -/
structure Container where
  slots : NameMap String := ∅
  layout : Option String := none
deriving Inhabited

structure Node where
  tag : String := ""
  kind : NodeKind
  capability : Capability := kind.capability
  body : String := ""
  attributes : Attributes := {}
  content : Content
  source : Option String := none
  span : Span
  parent : Option Nat := none
  scope : Scope := ∅
  closed : Bool := false
  container : Option Container := none
  paths : SearchPaths := ∅
  subscribed : Bool := false
deriving Inhabited

namespace Node

def literal (text : String) (span : Span) : Node where
  kind := .literal
  content := .text text
  span := span

/-- The root of a fragment. -/
def root (children : List Nat) (span : Span) : Node where
  kind := .root
  content := .children children
  span := span

/-- A node of a tag.  A body that cannot be read gives it no attributes. -/
def ofTag (t : TagDefinition) (body : String) (content : Content) (source : Option String)
    (span : Span) : Node where
  tag := t.name
  kind := t.kind
  capability := t.capability
  body := body
  attributes := (Attributes.ofBody t.attributes body).toOption.getD {}
  content := content
  source := source
  span := span

/-- The numbers of the nodes held, none for text. -/
def children (n : Node) : List Nat :=
  match n.content with
  | .children ids => ids
  | .text _ => []

def text? (n : Node) : Option String :=
  match n.content with
  | .text s => some s
  | .children _ => none

/-- The name by which events and handlers know the node. -/
def label (n : Node) : String :=
  if n.tag = "" then n.kind.name else n.tag

/-- The text of an attribute, empty without one. -/
def attributeText (n : Node) (key : String) : String :=
  (n.attributes.text? key).getD ""

/-- The name among the attributes, empty without one. -/
def givenName (n : Node) : String :=
  n.attributes.name.getD ""

end Node

end TagTemplate
