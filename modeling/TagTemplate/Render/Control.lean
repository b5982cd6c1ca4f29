import TagTemplate.Render.Comparison
import TagTemplate.Render.State

/-! # References, conditions and loops

The rules of nodes that show a variable or decide how often what they hold is rendered.  A rule
takes the rendering of what the node holds as `body`. -/

namespace TagTemplate

namespace RenderState

/-- The text of a reference: the variable, else the default, else what a generator makes up. -/
def referenceText (s : RenderState) (generators : NameMap Generator) (id : Nat) : String :=
  let n := s.node id
  match n.attributes.name with
  | none => ""
  | some name =>
    match (s.lookup? id name).filter (!·.isNull) with
    | some v => v.display
    | none =>
      match n.attributes.text? "default" with
      | some text => text
      | none =>
        match (n.attributes.text? "generator").bind generators.get? with
        | some generator => generator n
        | none => ""

/-- The condition of a node: its first test, or the truth of its variable if it has none. -/
def condition (s : RenderState) (id : Nat) : Bool :=
  let attributes := (s.node id).attributes
  match attributes.text? "var" with
  | none => false
  | some var =>
    let name := (Text.dropPrefix? ['$'] var.toList).elim var String.ofList
    let value := (s.lookup? id name).getD .null
    let test := Comparison.all.findSome? fun c => (attributes.get? c.key).map (c, ·)
    match test with
    | some (c, expected) => c.holds value (s.attributeValue id expected)
    | none => value.isTruthy

end RenderState

/-- An entry of a loop over a list or a map. -/
structure LoopEntry where
  key : Option String := none
  value : Value
deriving Inhabited

namespace LoopEntry

/-- The entries of a value: the items of a list, the fields of a map, nothing for null, and any
other value as the only entry. -/
def ofValue : Value → List LoopEntry
  | .list items => items.map fun v => { value := v }
  | .map fields => fields.entries.map fun e => { key := some e.1, value := e.2 }
  | .null => []
  | v => [{ value := v }]

/-- The variables of one round of a loop. -/
def scope (e : LoopEntry) (index : Nat) : Scope :=
  let s := ((∅ : Scope).insert "@current" e.value).insert "@index" (Function.ofNat index)
  match e.key with
  | some key => s.insert "@key" (.text key)
  | none => s

end LoopEntry

namespace RenderState

/-- The entries of a loop: those of a list as written, or of a variable. -/
def loopEntries (s : RenderState) (id : Nat) : List LoopEntry :=
  match (s.node id).attributes.get? "items" with
  | none => []
  | some (.list items) => (AttrValue.itemValues items).map fun v => { value := v }
  | some v => LoopEntry.ofValue ((s.lookup? id (v.referenced?.getD v.asText)).getD .null)

end RenderState

namespace Rendering

variable (id : Nat) (body : Rendering String)

/-- Renders the body if the condition holds. -/
def conditional : Rendering String := do
  if (← get).condition id then body else return ""

/-- The texts of the body, rendered while the condition holds, `limit` times at most. -/
def whileTexts : Nat → Rendering (List String)
  | 0 => do
    if (← get).condition id then report id .error "iteration limit reached"
    return []
  | limit + 1 => do
    if (← get).condition id then
      let text ← body
      return text :: (← whileTexts limit)
    else return []

/-- Renders the body while the condition holds. -/
def whileLoop (limit : Nat) : Rendering String :=
  return String.join (← whileTexts id body limit)

/-- The texts of the body, rendered once for each entry with the variables of the entry as the
only ones in the scope of the node. -/
def eachTexts (index : Nat) : List LoopEntry → Rendering (List String)
  | [] => return []
  | e :: rest => do
    modify fun s => s.setScope id (e.scope index)
    let text ← body
    return text :: (← eachTexts (index + 1) rest)

/-- Renders the body for each entry, and gives the node its own variables back. -/
def eachLoop : Rendering String := do
  let s ← get
  let n := s.node id
  let texts ← (eachTexts id body 0 (s.loopEntries id)).ensuring (·.setScope id n.scope)
  return (n.attributeText "glue").intercalate texts

/-- The text of the first attempt that is accepted, or of the last one; `attempt` is the number of
the next attempt, of which `count + 1` remain. -/
def attemptsFrom (accepts : Validator) (attempt : Nat) : Nat → Rendering String
  | 0 => do
    modify fun s => s.bind id "@attempt" (Function.ofNat attempt)
    let text ← body
    if !accepts text then report id .error "attempts exhausted"
    return text
  | count + 1 => do
    modify fun s => s.bind id "@attempt" (Function.ofNat attempt)
    let text ← body
    if accepts text then return text else attemptsFrom accepts (attempt + 1) count

/-- Number of attempts that a node asks for, three if it says nothing sensible. -/
def attemptCount (n : Node) : Nat :=
  max 1 (((n.attributes.text? "attempts").bind
    (Decimal.readNatural? Decimal.maxCount)).getD 3)

/-- Renders the body until a validator accepts its text. -/
def untilLoop (validators : NameMap Validator) : Rendering String := do
  let n ← node id
  match (n.attributes.text? "validator").bind validators.get? with
  | some accepts => attemptsFrom id body accepts 1 (attemptCount n - 1)
  | none => body

/-- Renders the body between the events of something awaited, which has already come. -/
def await : Rendering String := do
  let event := ((← node id).attributes.text? "event").getD "await"
  report id .started event
  report id .received event
  let text ← body
  report id .complete event
  return text

end Rendering

end TagTemplate
