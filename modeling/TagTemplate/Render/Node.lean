import TagTemplate.Render.Actions
import TagTemplate.Render.Control
import TagTemplate.Render.Slots

/-! # Rendering nodes

`renderNode` renders a node by the rule of its kind, between the events of its start and its end.
It goes down to nodes that came before, or to a fragment one level deeper, so it ends. -/

namespace TagTemplate

namespace Rendering

/-- The rule that produces text by itself. -/
def ownText (env : Environment) (id : Nat) (body : Rendering String) : Rendering String := do
  let n ← node id
  match n.kind with
  | .literal => return n.text?.getD ""
  | .reference => return (← get).referenceText env.toolkit.generators id
  | .conditional => conditional id body
  | .whileLoop => whileLoop id body env.settings.maxIterations
  | .eachLoop => eachLoop id body
  | .untilLoop => untilLoop id body env.toolkit.validators
  | .await => await id body
  | .comment => return ""
  | _ => body

def textRule (env : Environment) (id : Nat) (body : Rendering String) :
    TextRule → Rendering String
  | .own => ownText env id body
  | .layout => layout id body
  | .slot => slot id body
  | .output => output id

def actionRule (env : Environment) (id : Nat) (nested : Option (Nat → Rendering String)) :
    ActionRule → Rendering Value
  | .binding => binding env id
  | .expression => expression env id
  | .definition => definition id
  | .invocation => invocation env id nested
  | .inclusion => inclusion env id nested
  | .moduleUse => moduleUse env id nested

/-- The handler of a custom tag; without one the tag shows what it holds. -/
def customRule (env : Environment) (id : Nat) (body : Rendering String) : Rendering String := do
  match Handler.find? env.toolkit.handlers (← node id).tag with
  | some (.text p) => runProgram id body p
  | some (.action p) => return (← runProgram id body p).display
  | none => body

def rule (env : Environment) (id : Nat) (body : Rendering String)
    (nested : Option (Nat → Rendering String)) : Dispatch → Rendering String
  | .render r => textRule env id body r
  | .execute r => return (← actionRule env id nested r).display
  | .custom => customRule env id body

/-- The node is more than a piece of text or a sequence. -/
def hasLifecycle (k : NodeKind) : Bool :=
  k ≠ .literal ∧ k ≠ .root

/-- A step between the events of start and end, for nodes that have them. -/
def withLifecycle (id : Nat) (x : Rendering String) : Rendering String := do
  let k := (← node id).kind
  if hasLifecycle k then report id .started ""
  let text ← x
  if hasLifecycle k then report id .complete ""
  return text

/-- The rendering of a node by the rule of its kind. -/
def nodeWith (env : Environment) (id : Nat) (body : Rendering String)
    (nested : Option (Nat → Rendering String)) : Rendering String := do
  let k := (← node id).kind
  withLifecycle id (rule env id body nested k.dispatch)

/-- The texts of a list of nodes one after another. -/
def sequence (render : Nat → Rendering String) (ids : List Nat) : Rendering String :=
  return String.join (← ids.mapM render)

/-- The text of a node, where `depth` fragments are being rendered around its own. -/
def renderNode (env : Environment) (depth id : Nat) : Rendering String :=
  let body : Rendering String := do
    let n ← node id
    sequence (fun child => if _h : child < id then renderNode env depth child else pure "")
      n.children
  let nested : Option (Nat → Rendering String) :=
    if _h : depth < env.settings.maxDepth then some fun root => renderNode env (depth + 1) root
    else none
  nodeWith env id body nested
termination_by (env.settings.maxDepth - depth, id)
decreasing_by
  · exact Prod.Lex.right _ _h
  · exact Prod.Lex.left _ _ (by omega)

end Rendering

end TagTemplate
