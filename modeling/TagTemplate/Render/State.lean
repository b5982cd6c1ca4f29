import TagTemplate.Document.Fragment
import TagTemplate.Settings
import TagTemplate.Toolkit

/-! # The state of a rendering

A rendering changes its document, the variables of the template and the macros, and reports
events.  A step of a rendering is a function of this state that can end in an error; what has
been changed before an error stays changed.

* `RenderState.lookup?` finds a variable from a node upwards, then among those of the template.
* `RenderState.assign` binds a variable in the parent of a node, or among those of the template.
* `Rendering.build` reads a fragment and prepares its nodes. -/

namespace TagTemplate

/-- A macro: its parameters with the values they have if none is given, and its body. -/
structure MacroDefinition where
  parameters : Scope
  body : String
deriving Inhabited

/-- What a rendering can rely on without changing it. -/
structure Environment where
  toolkit : Toolkit
  scanner : TagScanner
  settings : Settings
  loader : Loader

/-- What a rendering changes. -/
structure RenderState where
  document : Document := ∅
  globals : Scope := ∅
  macros : NameMap MacroDefinition := ∅
  events : Array Event := #[]
deriving Inhabited

namespace RenderState

def node (s : RenderState) (id : Nat) : Node :=
  s.document.node id

/-- The value of a name, seen from a node. -/
def lookup? (s : RenderState) (id : Nat) (name : String) : Option Value :=
  match s.document.lookup? id name with
  | some v => some v
  | none => s.globals.get? name

/-- The node whose scope takes the assignments made by a node. -/
def target (s : RenderState) (id : Nat) : Nat :=
  (s.node id).parent.getD id

/-- The state after an assignment made by a node. -/
def assign (s : RenderState) (id : Nat) (a : Assignment) : RenderState :=
  if a.global then { s with globals := s.globals.insert a.name a.value }
  else { s with document := s.document.bind (s.target id) a.name a.value }

/-- The state after an event of a node, which counts only if the node reports its events. -/
def report (s : RenderState) (id : Nat) (kind : EventKind) (detail : String) : RenderState :=
  let n := s.node id
  if n.subscribed then { s with events := s.events.push ⟨kind, n.label, detail⟩ } else s

/-- The state with the scope of a node replaced. -/
def setScope (s : RenderState) (id : Nat) (scope : Scope) : RenderState :=
  { s with document := s.document.setScope id scope }

/-- The state with a variable bound in the scope of a node. -/
def bind (s : RenderState) (id : Nat) (name : String) (value : Value) : RenderState :=
  { s with document := s.document.bind id name value }

/-- The value of an attribute, where `$name` stands for a variable. -/
def attributeValue (s : RenderState) (id : Nat) (v : AttrValue) : Value :=
  match v.referenced? with
  | some name => (s.lookup? id name).getD .null
  | none => v.toValue

def arguments (s : RenderState) (id : Nat) : Scope :=
  .ofList ((s.node id).attributes.pairs.map fun p => (p.1, s.attributeValue id p.2))

end RenderState

abbrev Rendering := ExceptT RenderError (StateM RenderState)

namespace Rendering

variable {α : Type}

/-- The step that runs `x` and then, whether it succeeded or not, changes the state. -/
def ensuring (x : Rendering α) (f : RenderState → RenderState) : Rendering α := fun s =>
  let (r, s) := x s
  (r, f s)

/-- Reports an event of a node. -/
def report (id : Nat) (kind : EventKind) (detail : String) : Rendering Unit :=
  modify fun s => s.report id kind detail

def node (id : Nat) : Rendering Node :=
  return (← get).node id

/-- Reads a template text as a fragment and prepares its nodes; the result is its root. -/
def build (env : Environment) (source : String) (parent : Option Nat) (inherited : Scope)
    (paths : SearchPaths) : Rendering Nat := fun s =>
  match s.document.readFragment env.scanner source with
  | (d, .error errors) => (.error (.parse errors), { s with document := d })
  | (d, .ok root) =>
    let around := { parent, inherited, paths, bubble := env.settings.bubble }
    (.ok root, { s with document := d.prepare env.toolkit.preparers root around })

/-- Carries out what an evaluation leads to. -/
def carryOut (id : Nat) (o : Outcome) : Rendering Evaluation := do
  for e in o.events do
    report id e.1 e.2
  if let some a := o.assignment then
    modify fun s => s.assign id a
  match o.result with
  | .ok e => return e
  | .error e => throw (.evaluation e)

/-- Carries out the program of a handler, where `body` renders what the node holds. -/
def runProgram (id : Nat) (body : Rendering String) : TagProgram α → Rendering α
  | .done a => pure a
  | .fail e => throw e
  | .look next => do
    let s ← get
    runProgram id body (next id (s.node id) (s.lookup? id))
  | .assign a next => do
    modify fun s => s.assign id a
    runProgram id body next
  | .report kind detail next => do
    report id kind detail
    runProgram id body next
  | .renderChildren next => do
    let text ← body
    runProgram id body (next text)

end Rendering

end TagTemplate
