import TagTemplate.Attribute.Value
import TagTemplate.ParseError

/-! # Attributes of a tag

The body of a tag is a sequence of items, pairs `key=value` and lone values, with at most one comma
after each.  How the items become attributes depends on the form of the tag: pairs only, a name
and pairs, or the whole body as one expression. -/

namespace TagTemplate

/-- The attribute keys that a tag accepts. -/
inductive AllowedKeys where
  | only (keys : List String)
  | any
deriving DecidableEq, Repr

namespace AllowedKeys

/-- The key is accepted. -/
def allows : AllowedKeys → String → Bool
  | only keys, key => key ∈ keys
  | any, _ => true

/-- The one key declared, when there is exactly one. -/
def single? : AllowedKeys → Option String
  | only [key] => some key
  | _ => none

end AllowedKeys

/-- How the body of a tag becomes attributes. -/
inductive AttributeForm where
  | pairs
  | name
  | expression
deriving DecidableEq, Repr

/-- What a tag wants from its body. -/
structure AttributeSpec where
  form : AttributeForm := .pairs
  allowed : AllowedKeys := .any
deriving DecidableEq, Repr

structure Attributes where
  name : Option String := none
  expression : Option String := none
  pairs : List (String × AttrValue) := []
deriving Repr, Inhabited

namespace Attributes

/-- The value of the first pair with the key. -/
def get? (a : Attributes) (key : String) : Option AttrValue :=
  NameMap.find? key a.pairs

/-- The text of the first pair with the key. -/
def text? (a : Attributes) (key : String) : Option String :=
  (a.get? key).map AttrValue.asText

def contains (a : Attributes) (key : String) : Bool :=
  (a.get? key).isSome

/-- There is no name, no expression and no pair. -/
def isEmpty (a : Attributes) : Bool :=
  a.name.isNone && a.expression.isNone && a.pairs.isEmpty

end Attributes

/-! ### Items -/

/-- An item of a tag body. -/
inductive AttrItem where
  | pair (key : String) (value : AttrValue)
  | positional (value : AttrValue)
deriving Repr

namespace AttrItem

/-- The separators that can follow a complete item: a comma, or the end. -/
def afterValue : List Expectation :=
  [.token .comma, .endOfInput]

/-- What can follow a lone word: an equals sign makes it a key. -/
def afterWord : List Expectation :=
  [.token .comma, .token .equals, .endOfInput]

/-- The items of a list of tokens.  A comma is understood where `expected` has one; `final` is the
place of the end of the body. -/
def readAll (final : Span) (expected : List Expectation) :
    List (Token × Span) → Except ParseError (List AttrItem)
  | [] => .ok []
  | [(.word _, _), (.equals, _)] => .error (.malformed final (.unexpected none) [])
  | (.word key, _) :: (.equals, _) :: (t, span) :: rest =>
    match AttrValue.ofToken? t with
    | some v => (readAll final afterValue rest).map (pair key v :: ·)
    | none => .error (.malformed span (.unexpected (some t)) [])
  | (.word w, _) :: rest => (readAll final afterWord rest).map (positional (.bare w) :: ·)
  | (t, span) :: rest =>
    match AttrValue.ofToken? t with
    | some v => (readAll final afterValue rest).map (positional v :: ·)
    | none =>
      if t = .comma ∧ .token .comma ∈ expected then readAll final [.endOfInput] rest
      else .error (.malformed span (.unexpected (some t)) expected)

def pair? : AttrItem → Option (String × AttrValue)
  | pair key value => some (key, value)
  | positional _ => none

/-- The value that stands alone. -/
def positional? : AttrItem → Option AttrValue
  | pair _ _ => none
  | positional value => some value

end AttrItem

/-- The place where a body ends, as errors give it: from its length back to the end of its last
token. -/
def endSpan (body : String) (tokens : List (Token × Span)) : Span :=
  let length := body.utf8ByteSize
  ⟨length, (tokens.getLast?.map (·.2.stop)).getD length⟩

namespace Attributes

def readItems (body : String) : Except (List ParseError) (List AttrItem) :=
  match tokenize body with
  | .error errors => .error errors
  | .ok tokens => (AttrItem.readAll (endSpan body tokens) [.endOfInput] tokens).mapError ([·])

/-- The attributes that items make under a specification.  Pairs with an undeclared key are
dropped; a lone value names the element, or goes to the one key declared if no pair has it. -/
def ofItems (spec : AttributeSpec) (items : List AttrItem) : Attributes :=
  let pairs := (items.filterMap AttrItem.pair?).filter fun p => spec.allowed.allows p.1
  let first := (items.filterMap AttrItem.positional?).head?
  match spec.form with
  | .name => { name := first.map AttrValue.asText, pairs }
  | .expression => { pairs }
  | .pairs =>
    match spec.allowed.single?, first with
    | some key, some value =>
      if (NameMap.find? key pairs).isSome then { pairs } else { pairs := (key, value) :: pairs }
    | _, _ => { pairs }

def ofBody (spec : AttributeSpec) (body : String) : Except (List ParseError) Attributes :=
  let body := Text.trimmed body
  if spec.form = .expression then
    .ok { expression := if body = "" then none else some body }
  else (readItems body).map (ofItems spec)

end Attributes

end TagTemplate
