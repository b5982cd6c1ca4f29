import TagTemplate.Render.Node

/-! # Pages and their layouts

A page is rendered first; then the layout that it asks for, with the text of the page in one of
its slots; then the layout of that layout, until there is none, one comes again, or there are too
many. -/

namespace TagTemplate

namespace Rendering

variable (env : Environment)

/-- Reports an event that belongs to no node. -/
def reportTemplate (kind : EventKind) (detail : String) : Rendering Unit := do
  if env.settings.bubble then
    modify fun s => { s with events := s.events.push ⟨kind, "template", detail⟩ }

/-- Renders a source as a container that has slots already; the results are its text, and the
container at the end. -/
def renderContainer (source : String) (slots : NameMap String) :
    Rendering (String × Container) := do
  let root ← build env source none ∅ env.settings.paths
  modify fun s => { s with document := s.document.setContainer root { slots } }
  let text ← renderNode env 0 root
  return (text, ((← node root).container).getD {})

/-- The source of a layout.  Without one the rendering fails if it is strict, and goes on with an
event otherwise. -/
def loadLayout (name : String) : Rendering (Option String) := do
  match env.loader name (env.settings.paths.directories Loader.templates) with
  | .ok source => return some source
  | .error e =>
    if env.settings.strict then throw (.load e)
    reportTemplate env .error e.display
    return none

/-- The wording of an event about a layout that comes again. -/
def cycleMessage (name : String) : String :=
  "layout cycle at '" ++ name ++ "'"

/-- Puts layouts around a text as long as containers ask for them, `remaining` more at most; those
in `used` are not used again. -/
def wrap (used : List String) (text : String) (c : Container) :
    Nat → Rendering (String × Container)
  | 0 => do
    if let some name := c.layout then
      reportTemplate env .error (if name ∈ used then cycleMessage name else "layout chain too deep")
    return (text, c)
  | remaining + 1 =>
    match c.layout with
    | none => return (text, c)
    | some name =>
      if name ∈ used then do
        reportTemplate env .error (cycleMessage name)
        return (text, c)
      else do
        match ← loadLayout env name with
        | none => return (text, c)
        | some source =>
          let (text, c) ← renderContainer env source (c.slots.insert contentSlot text)
          wrap (name :: used) text c remaining

/-- Renders a page with all its layouts; the results are the text, and the outermost container. -/
def page (source : String) : Rendering (String × Container) := do
  let (text, c) ← renderContainer env source ∅
  wrap env [] text c env.settings.maxDepth

end Rendering

end TagTemplate
