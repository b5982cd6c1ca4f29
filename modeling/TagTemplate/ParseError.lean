import TagTemplate.Token

/-! # Errors of reading templates and tag bodies

A parse error is a tag body that is not understood, or a block that is opened and never closed.
`message` gives the wording of the error at hand, `display` that of the error in a message about
something else. -/

namespace TagTemplate

/-- What could have stood in place of a token that is not understood. -/
inductive Expectation where
  | token (t : Token)
  | label (s : String)
  | endOfInput
deriving DecidableEq, Repr

namespace Expectation

def text : Expectation → String
  | token t => t.describe
  | label s => s
  | endOfInput => "end of input"

end Expectation

/-- Why a tag body is not understood. -/
inductive Fault where
  | unrecognized (input : String)
  | unexpected (found : Option Token)
  | reported (message : String)
deriving DecidableEq, Repr

namespace Fault

/-- The wording of a fault. -/
def message : Fault → String
  | unrecognized input => "unrecognized input '" ++ input ++ "'"
  | unexpected none => "Unexpected end of input"
  | unexpected (some t) => "Unexpected " ++ t.describe
  | reported message => message

end Fault

/-- An error of reading a template or a tag body. -/
inductive ParseError where
  | malformed (span : Span) (fault : Fault) (expected : List Expectation)
  | unclosedBlock (tag : String) (span : Span)
deriving DecidableEq, Repr

namespace ParseError

def span : ParseError → Span
  | malformed span _ _ => span
  | unclosedBlock _ span => span

def display : ParseError → String
  | malformed span fault _ => "Parse error at " ++ span.toText ++ ": " ++ fault.message
  | unclosedBlock tag span => "unclosed block '" ++ tag ++ "' at " ++ span.toText

end ParseError

/-- The tokens of a tag body with their spans, or an error for each run of characters that begins
no token. -/
def tokenize (body : String) : Except (List ParseError) (List (Token × Span)) :=
  let pieces := Piece.all 0 body.toList
  let errors := pieces.filterMap fun
    | (.unknown s, span) => some (ParseError.malformed span (.unrecognized s) [])
    | _ => none
  if errors.isEmpty then
    .ok (pieces.filterMap fun
      | (.token t, span) => some (t, span)
      | _ => none)
  else .error errors

end TagTemplate
