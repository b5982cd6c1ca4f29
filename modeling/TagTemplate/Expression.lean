import TagTemplate.Attribute.Grammar

/-! # Expressions

An expression calls a function and may assign its result:
`name ( arguments ) -> target options`.  The name, the target and the options can be missing, the
parentheses cannot. -/

namespace TagTemplate

/-- An argument of a call. -/
inductive Argument where
  | literal (v : Value)
  | reference (name : String)
deriving Inhabited

namespace Argument

/-- The argument that a bare word stands for: `$name` and any word that is not a literal name a
variable. -/
def ofWord (w : String) : Argument :=
  match Text.dropPrefix? ['$'] w.toList with
  | some name => reference (.ofList name)
  | none =>
    match Value.ofBare w with
    | .text _ => reference w
    | v => literal v

def ofToken? : Token → Option Argument
  | .doubleQuoted s => some (literal (.text s))
  | .singleQuoted s => some (literal (.text s))
  | .bracketed s => some (literal (.list (AttrValue.itemValues (AttrValue.items s))))
  | .word w => some (ofWord w)
  | _ => none

end Argument

/-- A call with its target and options. -/
structure Expression where
  function : Option String := none
  arguments : List Argument := []
  target : Option String := none
  options : List (String × Option Value) := []
deriving Inhabited

namespace Expression

/-- The first option of a name: none if it is not given, its value if it has one. -/
def option? (e : Expression) (name : String) : Option (Option Value) :=
  NameMap.find? name e.options

/-- Failures are swallowed, unless the first option `silent` says otherwise. -/
def silent (e : Expression) : Bool :=
  match e.option? "silent" with
  | some (some v) => v.isTruthy
  | _ => true

/-- The result is assigned among the variables of the template. -/
def «global» (e : Expression) : Bool :=
  match e.option? "global" with
  | some (some v) => v.isTruthy
  | some none => true
  | none => false

/-! ### Reading -/

/-- The error at the first of the remaining tokens, or at the end. -/
def unexpected (final : Span) (tokens : List (Token × Span)) (expected : List Expectation) :
    ParseError :=
  match tokens with
  | [] => .malformed final (.unexpected none) expected
  | (t, span) :: _ => .malformed span (.unexpected (some t)) expected

/-- Arguments up to the closing parenthesis, and the tokens after it.  An argument can be followed
by a comma, which may be the last thing before the parenthesis. -/
def readArguments (final : Span) :
    List (Token × Span) → Except ParseError (List Argument × List (Token × Span))
  | (.parenClose, _) :: rest => .ok ([], rest)
  | (t, s) :: rest =>
    match Argument.ofToken? t with
    | none => .error (unexpected final ((t, s) :: rest) [.token .parenClose, .label "argument"])
    | some a =>
      match rest with
      | (.parenClose, _) :: rest => .ok ([a], rest)
      | (.comma, _) :: rest => (readArguments final rest).map fun p => (a :: p.1, p.2)
      | rest => .error (unexpected final rest [.token .parenClose, .token .comma])
  | [] => .error (unexpected final [] [.token .parenClose, .label "argument"])

def optionValue? : Token → Option Value
  | .doubleQuoted s => some (.text s)
  | .singleQuoted s => some (.text s)
  | .word w => some (.ofBare w)
  | _ => none

/-- Options up to the end; `expected` is what can stand here instead of an option. -/
def readOptions (final : Span) (expected : List Expectation) :
    List (Token × Span) → Except ParseError (List (String × Option Value))
  | [] => .ok []
  | [(.word _, _), (.equals, _)] => .error (unexpected final [] [])
  | (.word key, _) :: (.equals, _) :: (t, s) :: rest =>
    match optionValue? t with
    | some v => (readOptions final [.endOfInput] rest).map ((key, some v) :: ·)
    | none => .error (unexpected final ((t, s) :: rest) [])
  | (.word key, _) :: rest =>
    (readOptions final [.token .equals, .endOfInput] rest).map ((key, none) :: ·)
  | rest => .error (unexpected final rest expected)

/-- What follows the closing parenthesis: a target, and options. -/
def readTail (final : Span) (call : Expression) :
    List (Token × Span) → Except ParseError Expression
  | (.arrow, _) :: (.word target, _) :: rest =>
    (readOptions final [.endOfInput] rest).map fun options =>
      { call with target := some target, options }
  | (.arrow, _) :: rest => .error (unexpected final rest [.label "assignment target"])
  | rest =>
    (readOptions final [.token .arrow, .endOfInput] rest).map fun options =>
      { call with options }

def ofTokens (final : Span) (tokens : List (Token × Span)) : Except ParseError Expression :=
  let (function, rest) := match tokens with
    | (.word f, _) :: rest => (some f, rest)
    | rest => (none, rest)
  match rest with
  | (.parenOpen, _) :: rest =>
    match readArguments final rest with
    | .error e => .error e
    | .ok (arguments, rest) => readTail final { function, arguments } rest
  | rest => .error (unexpected final rest [.token .parenOpen])

def parse (source : String) : Except (List ParseError) Expression :=
  match tokenize source with
  | .error errors => .error errors
  | .ok tokens => (ofTokens (endSpan source tokens) tokens).mapError ([·])

end Expression

end TagTemplate
