import TagTemplate.Render.State

/-! # Bindings, expressions, macros, inclusions and modules

The rules of nodes that act on variables and macros or bring in another source.  A rule that
renders a fragment of its own takes `nested`, which renders the node of a number one level
deeper; there is none at the deepest level. -/

namespace TagTemplate

namespace Rendering

variable (env : Environment) (id : Nat)

/-! ### Bindings -/

/-- The keys of a binding that name no variable. -/
def bindingOptions : List String :=
  ["global", "type"]

/-- Binds the variable of one pair, turned into the type asked for where that is possible. -/
def bindPair (datatype : Option Datatype) (isGlobal : Bool) (key : String) (raw : AttrValue) :
    Rendering Unit := do
  let value := (← get).attributeValue id raw
  let coerced := datatype.elim (some value) fun type => type value
  if coerced.isNone then report id .error ("cannot coerce '" ++ key ++ "'")
  modify fun s => s.assign id { name := key, value := coerced.getD value, «global» := isGlobal }

/-- Binds the variables of all pairs in turn. -/
def binding : Rendering Value := do
  let attributes := (← node id).attributes
  let isGlobal := ((attributes.get? "global").map fun v => v.toValue.isTruthy).getD false
  let datatype := (attributes.text? "type").bind env.toolkit.datatypes.get?
  for (key, raw) in attributes.pairs.filter fun p => p.1 ∉ bindingOptions do
    bindPair id datatype isGlobal key raw
  return .null

/-- Evaluates the expression of a node; an assigned value is not shown. -/
def expression : Rendering Value := do
  let s ← get
  let source := (s.node id).attributes.expression.getD ""
  let result ← carryOut id (Expression.evaluate env.toolkit.functions (s.lookup? id) source)
  return if result.assigned.isSome then .null else result.value

/-! ### Macros -/

/-- Keeps the body of a node as a macro. -/
def definition : Rendering Value := do
  let n ← node id
  if let some name := n.attributes.name then
    let parameters := Scope.ofList (n.attributes.pairs.map fun p => (p.1, p.2.toValue))
    let m : MacroDefinition := { parameters, body := n.text?.getD "" }
    modify fun s => { s with macros := s.macros.insert name m }
  return .null

/-- Reports that fragments are nested too deep. -/
def tooDeep : Rendering Value := do
  report id .error "maximum nesting depth exceeded"
  return .null

/-- Renders a source as a fragment below a node, with variables of its own. -/
def renderSource (nested : Option (Nat → Rendering String)) (source : String) (bindings : Scope)
    (paths : SearchPaths) : Rendering Value :=
  match nested with
  | none => tooDeep id
  | some render => do
    let root ← build env source (some id) bindings paths
    return .text (← render root)

/-- Renders the body of a macro with the arguments of a node in place of its defaults. -/
def invocation (nested : Option (Nat → Rendering String)) : Rendering Value := do
  let s ← get
  let n := s.node id
  match s.macros.get? n.givenName with
  | some m => renderSource env id nested m.body (m.parameters.extend (s.arguments id)) n.paths
  | none =>
    report id .error ("unknown macro '" ++ n.givenName ++ "'")
    return .null

/-! ### Other sources -/

/-- The source that a node names, from a search root.  Without one the rendering fails if it is
strict, and goes on with an event otherwise. -/
def loadFor (root : String) : Rendering (Option String) := do
  let n ← node id
  match env.loader n.givenName (n.paths.directories root) with
  | .ok source => return some source
  | .error e =>
    if env.settings.strict then throw (.load e)
    report id .error e.display
    return none

/-- Renders the source that a node names, with its arguments as variables. -/
def inclusion (nested : Option (Nat → Rendering String)) : Rendering Value := do
  match ← loadFor env id Loader.templates with
  | none => return .null
  | some source =>
    let s ← get
    renderSource env id nested source (s.arguments id) (s.node id).paths

/-- Renders a module that stands alone, drops its text and takes over its variables. -/
def moduleUse (nested : Option (Nat → Rendering String)) : Rendering Value := do
  match ← loadFor env id Loader.modules with
  | none => return .null
  | some source =>
    match nested with
    | none => tooDeep id
    | some render =>
      let root ← build env source none ∅ (← node id).paths
      let _ ← render root
      modify fun s =>
        let target := s.target id
        s.setScope target ((s.node target).scope.extend (s.node root).scope)
      return .null

end Rendering

end TagTemplate
