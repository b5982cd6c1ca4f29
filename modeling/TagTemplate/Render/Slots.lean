import TagTemplate.Render.State

/-! # Layouts and slots

A page can ask for a layout and fill slots; a layout shows slots.  The rules of the nodes that do
so act on the nearest container, the root of the page or of the layout. -/

namespace TagTemplate

/-- The slot that holds the text of the page inside a layout. -/
def contentSlot : String := "content"

namespace RenderState

/-- The nearest container at or above a node, with its number. -/
def container? (s : RenderState) (id : Nat) : Option (Nat × Container) :=
  (s.document.nearestContainer? id).bind fun root =>
    (s.node root).container.map (root, ·)

/-- The state with the nearest container changed, where there is one. -/
def updateContainer (s : RenderState) (id : Nat) (f : Container → Container) : RenderState :=
  match s.container? id with
  | some (root, c) => { s with document := s.document.setContainer root (f c) }
  | none => s

end RenderState

namespace Rendering

variable (id : Nat) (body : Rendering String)

/-- Asks for a layout.  What the node holds becomes the content. -/
def layout : Rendering String := do
  let n ← node id
  if let some name := n.attributes.text? "name" then
    let content ← if n.children.isEmpty then pure none else some <$> body
    modify fun s => s.updateContainer id fun c =>
      { layout := some name
        slots := content.elim c.slots (c.slots.insert contentSlot) }
  return ""

/-- Fills a slot with what the node holds, and shows it. -/
def slot : Rendering String := do
  let text ← body
  if let some name := (← node id).attributes.text? "name" then
    modify fun s => s.updateContainer id fun c => { c with slots := c.slots.insert name text }
  return text

def output : Rendering String := do
  let s ← get
  let slots := (s.container? id).elim ∅ (·.2.slots)
  return (((s.node id).attributes.text? "name").bind slots.get?).getD ""

end Rendering

end TagTemplate
