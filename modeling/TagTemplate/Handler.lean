import TagTemplate.Document.Node
import TagTemplate.Evaluation
import TagTemplate.Source.Loader
import TagTemplate.Tag.Registry

/-! # Handlers of custom tags

A handler is a program of steps that a rendering carries out for a node: it looks at the node and
the variables visible from it, binds variables, reports events and renders what the node holds.
It can do nothing else. -/

namespace TagTemplate

/-- An error that ends a rendering. -/
inductive RenderError where
  | parse (errors : List ParseError)
  | tags (cause : TagError)
  | evaluation (cause : EvalError)
  | load (cause : LoadError)
  | custom (tag message : String)
deriving Repr

namespace RenderError

def display : RenderError → String
  | parse errors => "parse errors: " ++ "; ".intercalate (errors.map ParseError.display)
  | tags cause => "tag registry error: " ++ cause.display
  | evaluation cause => "evaluation error: " ++ cause.display
  | load cause => "load error: " ++ cause.display
  | custom tag message => "tag '" ++ tag ++ "' failed: " ++ message

end RenderError

/-- The steps that end in a result. -/
inductive TagProgram (α : Type) where
  | done (a : α)
  | fail (e : RenderError)
  | look (next : Nat → Node → (String → Option Value) → TagProgram α)
  | assign (a : Assignment) (next : TagProgram α)
  | report (kind : EventKind) (detail : String) (next : TagProgram α)
  | renderChildren (next : String → TagProgram α)

namespace TagProgram

variable {α β : Type}

/-- One program after another. -/
def bind : TagProgram α → (α → TagProgram β) → TagProgram β
  | done a, f => f a
  | fail e, _ => .fail e
  | look next, f => .look fun id n lookup => (next id n lookup).bind f
  | assign a next, f => .assign a (next.bind f)
  | report kind detail next, f => .report kind detail (next.bind f)
  | renderChildren next, f => .renderChildren fun s => (next s).bind f

instance : Monad TagProgram where
  pure := .done
  bind := .bind

def node : TagProgram Node :=
  .look fun _ n _ => .done n

def children : TagProgram String :=
  .renderChildren .done

/-- Binds a variable in the enclosing block. -/
def set (name : String) (value : Value) : TagProgram Unit :=
  .assign { name, value, «global» := false } (.done ())

/-- Carries out what an evaluation leads to, up to its value. -/
def ofOutcome (o : Outcome) : TagProgram Value :=
  let result : TagProgram Value := match o.result with
    | .ok e => .done e.value
    | .error e => .fail (.evaluation e)
  let assigned := match o.assignment with
    | some a => .assign a result
    | none => result
  o.events.foldr (fun e next => .report e.1 e.2 next) assigned

end TagProgram

/-- A handler shows its text, or the display of its value. -/
inductive Handler where
  | text (p : TagProgram String)
  | action (p : TagProgram Value)

namespace Handler

/-- The name under which a handler stands for all tags without one of their own. -/
def anyTag : String := "*"

def find? (handlers : NameMap Handler) (tag : String) : Option Handler :=
  match handlers.get? tag with
  | some h => some h
  | none => handlers.get? anyTag

end Handler

end TagTemplate
