import TagTemplate.Event
import TagTemplate.Expression
import TagTemplate.Function

/-! # Evaluation

An evaluation reads variables and says what follows: events to report, at most one assignment, and
a value or an error.  Whoever asks for it carries the effects out. -/

namespace TagTemplate

inductive EvalError where
  | unknownFunction (name : String)
  | function (name : String) (cause : FunctionError)
  | malformed (expression : String) (errors : List ParseError)
deriving Repr

namespace EvalError

def display : EvalError → String
  | unknownFunction name => "unknown function: " ++ name
  | function name cause => "function '" ++ name ++ "' failed: " ++ cause.display
  | malformed expression _ => "malformed expression '" ++ expression ++ "'"

end EvalError

/-- The value of an expression, and the variable it goes to. -/
structure Evaluation where
  value : Value := .null
  assigned : Option String := none
deriving Inhabited

/-- A value to be written to a variable, of the template if `global`, else of the block. -/
structure Assignment where
  name : String
  value : Value
  «global» : Bool
deriving Inhabited

/-- What an evaluation leads to: events in order, then an assignment. -/
structure Outcome where
  result : Except EvalError Evaluation
  events : List (EventKind × String) := []
  assignment : Option Assignment := none

namespace Outcome

/-- The outcome of a failed call: an error, or nothing at all where failures are swallowed. -/
def failed (silent : Bool) (before : List (EventKind × String)) (e : EvalError) : Outcome where
  result := if silent then .ok {} else .error e
  events := before ++ [(.error, e.display)]

/-- The outcome of an expression that has a value. -/
def succeeded (expr : Expression) (events : List (EventKind × String)) (v : Value) : Outcome where
  result := .ok { value := v, assigned := expr.target }
  events := events
  assignment := expr.target.map fun name => { name, value := v, «global» := expr.global }

end Outcome

namespace Expression

variable (functions : NameMap Function) (lookup : String → Option Value)

/-- The value of an argument; a variable without a value counts as null. -/
def argumentValue : Argument → Value
  | .literal v => v
  | .reference name => (lookup name).getD .null

/-- The outcome of an expression.  Without a function it has the value of its first argument. -/
def run (expr : Expression) : Outcome :=
  let arguments := expr.arguments.map (argumentValue lookup)
  match expr.function with
  | none => .succeeded expr [] (arguments.headD .null)
  | some name =>
    match functions.get? name with
    | none => .failed expr.silent [] (.unknownFunction name)
    | some f =>
      match f arguments with
      | .ok v => .succeeded expr [(.sent, name), (.received, name)] v
      | .error e => .failed expr.silent [(.sent, name)] (.function name e)

/-- The outcome of an expression in text form; a malformed one counts as null. -/
def evaluate (source : String) : Outcome :=
  match parse source with
  | .ok expr => run functions lookup expr
  | .error errors =>
    { result := .ok {}, events := [(.error, (EvalError.malformed source errors).display)] }

/-- The outcome of an expression in text form; a malformed one is an error. -/
def evaluateStrict (source : String) : Outcome :=
  match parse source with
  | .ok expr => run functions lookup expr
  | .error errors => { result := .error (.malformed source errors) }

end Expression

end TagTemplate
