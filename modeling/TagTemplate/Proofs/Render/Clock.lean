import TagTemplate.Proofs.Scanning.Clock
import TagTemplate.Template

/-! # Rendering by the clock

The functions that render a template are written so that they can be seen to end: they follow only
numbers that go down, and count what is left down to zero.  Here the same steps are calls of each
other without any of this.  A call takes one from a clock, and a call at zero ends the whole
rendering with the error `stop`; nothing catches an error, so a rendering that does not end so has
made all its calls in time.  What the program itself looks at stays: the depth of fragments, the
iterations of a loop, and the layouts in use.

* `Document.walkWithin` and `Document.familyWithin`: the way up from a node, and all below it.
* `Rendering.nodeWithin`: the text of a node.
* `Template.renderWithin`: the rendering of a source. -/

namespace TagTemplate

namespace Document

/-- A node and its ancestors, the nearest first. -/
def walkWithin (d : Document) : Nat → Nat → Option (List Nat)
  | 0, _ => none
  | n + 1, id =>
    match (d.node id).parent with
    | none => some [id]
    | some parent => (d.walkWithin n parent).map (id :: ·)

/-- A node and all below it with their parents, parents before children. -/
def familyWithin (d : Document) : Nat → Option Nat → Nat → Option (List (Nat × Option Nat))
  | 0, _, _ => none
  | n + 1, parent, id => do
    let below ← (d.node id).children.mapM fun child => d.familyWithin n (some id) child
    return (id, parent) :: below.flatten

/-- The document with a node and all below it prepared. -/
def prepareWithin (d : Document) (n : Nat) (preparers : List Preparer) (root : Nat)
    (around : Surroundings) : Option Document :=
  (d.familyWithin n around.parent root).map fun family =>
    family.foldl (fun d e => d.update e.1 (Node.prepared preparers around e.2)) d

/-- The document with the nodes of a template text, and the number of its root, or the errors of
the text. -/
def readFragmentWithin (d : Document) (n : Nat) (s : TagScanner) (source : String) :
    Option (Document × Except (List ParseError) Nat) := do
  let reading ← s.readWithin n 0 source.toList.toArray 0 0
  let (d, ids) := d.pushParts reading.parts
  return if reading.errors.isEmpty then
      (d.push (.root ids ⟨0, source.utf8ByteSize⟩), .ok d.size)
    else (d, .error reading.errors)

end Document

namespace Rendering

variable (env : Environment) (n : Nat) (stop : RenderError) (id : Nat)

/-- Reads a template text as a fragment and prepares its nodes; the result is its root. -/
def buildWithin (source : String) (parent : Option Nat) (inherited : Scope)
    (paths : SearchPaths) : Rendering Nat := fun s =>
  match s.document.readFragmentWithin n env.scanner source with
  | none => (.error stop, s)
  | some (d, .error errors) => (.error (.parse errors), { s with document := d })
  | some (d, .ok root) =>
    let around : Surroundings := { parent, inherited, paths, bubble := env.settings.bubble }
    match d.prepareWithin n env.toolkit.preparers root around with
    | none => (.error stop, s)
    | some d => (.ok root, { s with document := d })

/-- Goes from a node up to its last ancestor, as the look-ups from the node do. -/
def climbWithin : Rendering Unit := do
  if ((← get).document.walkWithin n id).isNone then throw stop

/-- The texts of the body, rendered while the condition holds, after `done` rounds. -/
def whileWithin (body : Rendering String) (limit : Nat) : Nat → Nat → Rendering (List String)
  | 0, _ => throw stop
  | n + 1, done => do
    if (← get).condition id then
      if done < limit then
        let text ← body
        return text :: (← whileWithin body limit n (done + 1))
      else
        report id .error "iteration limit reached"
        return []
    else return []

/-! ### Nodes that bring in a source -/

section nested
variable (nested : Option (Nat → Rendering String))

/-- Renders a source as a fragment below a node, with variables of its own. -/
def renderSourceWithin (source : String) (bindings : Scope) (paths : SearchPaths) :
    Rendering Value :=
  match nested with
  | none => tooDeep id
  | some render => do
    let root ← buildWithin env n stop source (some id) bindings paths
    return .text (← render root)

/-- Renders the body of a macro with the arguments of a node in place of its defaults. -/
def invocationWithin : Rendering Value := do
  let s ← get
  let node := s.node id
  match s.macros.get? node.givenName with
  | some m =>
    renderSourceWithin env n stop id nested m.body (m.parameters.extend (s.arguments id)) node.paths
  | none =>
    report id .error ("unknown macro '" ++ node.givenName ++ "'")
    return .null

/-- Renders the source that a node names, with its arguments as variables. -/
def inclusionWithin : Rendering Value := do
  match ← loadFor env id Loader.templates with
  | none => return .null
  | some source =>
    let s ← get
    renderSourceWithin env n stop id nested source (s.arguments id) (s.node id).paths

/-- Renders a module that stands alone, drops its text and takes over its variables. -/
def moduleUseWithin : Rendering Value := do
  match ← loadFor env id Loader.modules with
  | none => return .null
  | some source =>
    match nested with
    | none => tooDeep id
    | some render =>
      let root ← buildWithin env n stop source none ∅ (← node id).paths
      let _ ← render root
      modify fun s =>
        let target := s.target id
        s.setScope target ((s.node target).scope.extend (s.node root).scope)
      return .null

/-- The rule of a node of a kind. -/
def ruleWithin (body : Rendering String) : NodeKind → Rendering String
  | .whileLoop =>
    return String.join (← whileWithin stop id body env.settings.maxIterations n 0)
  | .invocation => return (← invocationWithin env n stop id nested).display
  | .inclusion => return (← inclusionWithin env n stop id nested).display
  | .moduleUse => return (← moduleUseWithin env n stop id nested).display
  | k => rule env id body nested k.dispatch

end nested

/-! ### Nodes and pages -/

/-- The text of a node, where `depth` fragments are being rendered around its own.  The way up is
gone before the rule of the node and after each rendering of what it holds. -/
def nodeWithin : Nat → Nat → Nat → Rendering String
  | 0, _, _ => throw stop
  | n + 1, depth, id => do
    climbWithin n stop id
    let body : Rendering String := do
      let text ← sequence (nodeWithin n depth) (← node id).children
      climbWithin n stop id
      return text
    let nested : Option (Nat → Rendering String) :=
      if depth < env.settings.maxDepth then some (nodeWithin n (depth + 1)) else none
    let k := (← node id).kind
    withLifecycle id (ruleWithin env n stop id nested body k)

/-- Renders a source as a container that has slots already. -/
def renderContainerWithin (source : String) (slots : NameMap String) :
    Rendering (String × Container) := do
  let root ← buildWithin env n stop source none ∅ env.settings.paths
  modify fun s => { s with document := s.document.setContainer root { slots } }
  let text ← nodeWithin env stop n 0 root
  return (text, ((← node root).container).getD {})

/-- Puts layouts around a text as long as containers ask for them; those in `used` are not used
again. -/
def wrapWithin : Nat → List String → String → Container → Rendering (String × Container)
  | 0, _, _, _ => throw stop
  | n + 1, used, text, c =>
    match c.layout with
    | none => return (text, c)
    | some name =>
      if name ∈ used then do
        reportTemplate env .error (cycleMessage name)
        return (text, c)
      else if env.settings.maxDepth ≤ used.length then do
        reportTemplate env .error "layout chain too deep"
        return (text, c)
      else do
        match ← loadLayout env name with
        | none => return (text, c)
        | some source =>
          let (text, c) ← renderContainerWithin env n stop source (c.slots.insert contentSlot text)
          wrapWithin n (name :: used) text c

/-- Renders a page with all its layouts. -/
def pageWithin (source : String) : Rendering (String × Container) := do
  let (text, c) ← renderContainerWithin env n stop source ∅
  wrapWithin env stop n [] text c

end Rendering

namespace Template

/-- What the rendering of a page leaves. -/
def rendered (t : Template) (r : Except RenderError (String × Container) × RenderState) :
    Rendered :=
  let (result, s) := r
  let events := s.events.toList
  match result with
  | .ok (text, c) =>
    { result := .ok text, template := { t with globals := s.globals, slots := c.slots }, events }
  | .error e => { result := .error e, template := { t with globals := s.globals }, events }

/-- Renders a source with a clock. -/
def renderWithin (t : Template) (n : Nat) (stop : RenderError) (source : String) : Rendered :=
  match TagScanner.ofTags t.toolkit.tags t.settings.delimiters with
  | .error e => { result := .error (.tags e), template := t }
  | .ok scanner =>
    let env : Environment := ⟨t.toolkit, scanner, t.settings, t.loader⟩
    t.rendered (Rendering.pageWithin env n stop source { globals := t.globals })

end Template

end TagTemplate
