/-! # Kinds of nodes

What a node of a document is, what it is able to do by default, and which rule renders it. -/

namespace TagTemplate

/-- What a node is able to do. -/
inductive Capability where
  | renderable
  | executable
  | loop
  | condition
deriving DecidableEq, Repr

namespace Capability

def name : Capability → String
  | renderable => "renderable"
  | executable => "executable"
  | loop => "loop"
  | condition => "condition"

end Capability

/-- The kinds of nodes: the root of a fragment, literal text, and what tags stand for. -/
inductive NodeKind where
  | root
  | literal
  | reference
  | expression
  | binding
  | conditional
  | whileLoop
  | eachLoop
  | untilLoop
  | await
  | comment
  | layout
  | slot
  | output
  | inclusion
  | moduleUse
  | definition
  | invocation
  | custom
deriving DecidableEq, Repr, Inhabited

namespace NodeKind

def all : List NodeKind :=
  [root, literal, reference, expression, binding, conditional, whileLoop, eachLoop, untilLoop,
    await, comment, layout, slot, output, inclusion, moduleUse, definition, invocation, custom]

def name : NodeKind → String
  | root => "root"
  | literal => "text"
  | reference => "variable"
  | expression => "expression"
  | binding => "let"
  | conditional => "if"
  | whileLoop => "while"
  | eachLoop => "each"
  | untilLoop => "until"
  | await => "await"
  | comment => "comment"
  | layout => "template"
  | slot => "section"
  | output => "output"
  | inclusion => "include"
  | moduleUse => "import"
  | definition => "macro"
  | invocation => "invoke"
  | custom => "custom"

def ofName? (name : String) : Option NodeKind :=
  all.find? fun k => k.name = name

/-- What nodes of a kind are able to do, unless their tag says otherwise. -/
def capability : NodeKind → Capability
  | conditional => .condition
  | whileLoop | eachLoop | untilLoop => .loop
  | expression | binding | inclusion | moduleUse | definition | invocation => .executable
  | _ => .renderable

theorem mem_all (k : NodeKind) : k ∈ all := by
  cases k <;> decide

theorem ofName?_name (k : NodeKind) : ofName? k.name = some k := by
  cases k <;> decide

end NodeKind

/-! ### Rules -/

/-- The rules that produce text. -/
inductive TextRule where
  | own
  | layout
  | slot
  | output
deriving DecidableEq, Repr

/-- The rules that act on bindings and definitions. -/
inductive ActionRule where
  | binding
  | expression
  | definition
  | invocation
  | inclusion
  | moduleUse
deriving DecidableEq, Repr

/-- The rule that renders a node. -/
inductive Dispatch where
  | render (r : TextRule)
  | execute (r : ActionRule)
  | custom
deriving DecidableEq, Repr

def NodeKind.dispatch : NodeKind → Dispatch
  | root | literal | reference | conditional | whileLoop | eachLoop | untilLoop | await
  | comment => .render .own
  | layout => .render .layout
  | slot => .render .slot
  | output => .render .output
  | binding => .execute .binding
  | expression => .execute .expression
  | definition => .execute .definition
  | invocation => .execute .invocation
  | inclusion => .execute .inclusion
  | moduleUse => .execute .moduleUse
  | custom => .custom

end TagTemplate
