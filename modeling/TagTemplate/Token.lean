import TagTemplate.Span
import TagTemplate.Text.Quoted

/-! # Tokens of tag bodies

The body of a tag is read as a list of tokens.  Blanks, tabs and line breaks separate tokens; a
word is a run of all characters that mean nothing else.

* `Piece.read` takes the first piece off a text: blank space, a token, or characters that begin
  no token.
* `Piece.all` cuts a whole text into pieces, each with its span. -/

namespace TagTemplate

/-- A token of a tag body.  Quoted tokens hold the text meant, a bracketed token the text between
its brackets. -/
inductive Token where
  | arrow
  | equals
  | parenOpen
  | parenClose
  | comma
  | doubleQuoted (s : String)
  | singleQuoted (s : String)
  | bracketed (s : String)
  | word (s : String)
deriving DecidableEq, Repr

namespace Token

def describe : Token → String
  | arrow => "'->'"
  | equals => "'='"
  | parenOpen => "'('"
  | parenClose => "')'"
  | comma => "','"
  | doubleQuoted s => "string \"" ++ s ++ "\""
  | singleQuoted s => "string \"" ++ s ++ "\""
  | bracketed s => "list [" ++ s ++ "]"
  | word s => "'" ++ s ++ "'"

/-- The characters that separate tokens. -/
def isBlank (c : Char) : Bool :=
  c = ' ' ∨ c = '\t' ∨ c = '\n' ∨ c = '\r'

/-- The characters that end a word, apart from blanks. -/
def isPunctuation (c : Char) : Bool :=
  c ∈ ['=', '(', ')', ',', '[', ']', '\'', '"', '>']

def isWordPart (c : Char) : Bool :=
  !isBlank c && !isPunctuation c

end Token

/-- A piece of a tag body. -/
inductive Piece where
  | blank
  | token (t : Token)
  | unknown (s : String)
deriving DecidableEq, Repr

namespace Piece

/-- The inside of a quoted text up to the closing quote, and whether there is one.  A backslash
takes the character after it along, unless that is a line break or missing. -/
def quotedRun (quote : Char) : List Char → List Char × Bool
  | [] => ([], false)
  | c :: s =>
    if c = quote then ([], true)
    else if c = '\\' then
      match s with
      | [] => ([], false)
      | d :: s =>
        if d = '\n' then ([], false)
        else let (run, closed) := quotedRun quote s; (c :: d :: run, closed)
    else let (run, closed) := quotedRun quote s; (c :: run, closed)

/-- The piece that begins with the character `c`, and the number of characters it takes from the
rest of the text. -/
def read (c : Char) (rest : List Char) : Piece × Nat :=
  if Token.isBlank c then (blank, 0)
  else if c = '-' ∧ rest.head? = some '>' then (token .arrow, 1)
  else if c = '=' then (token .equals, 0)
  else if c = '(' then (token .parenOpen, 0)
  else if c = ')' then (token .parenClose, 0)
  else if c = ',' then (token .comma, 0)
  else if c = '"' ∨ c = '\'' then
    let (run, closed) := quotedRun c rest
    if closed then
      let s := String.ofList (Text.unquote c run)
      (token (if c = '"' then .doubleQuoted s else .singleQuoted s), run.length + 1)
    else (unknown (.ofList (c :: run)), run.length)
  else if c = '[' then
    let run := rest.takeWhile (· ≠ ']')
    if run.length < rest.length then (token (.bracketed (.ofList run)), run.length + 1)
    else (unknown (.ofList (c :: run)), run.length)
  else if Token.isPunctuation c then (unknown (.singleton c), 0)
  else
    let run := rest.takeWhile Token.isWordPart
    (token (.word (.ofList (c :: run))), run.length)

/-- The pieces of a text whose first byte is at `start`. -/
def all (start : Nat) : List Char → List (Piece × Span)
  | [] => []
  | c :: rest =>
    let (piece, extra) := read c rest
    let stop := start + Text.byteLength (c :: rest.take extra)
    (piece, ⟨start, stop⟩) :: all stop (rest.drop extra)
termination_by s => s.length
decreasing_by simp only [List.length_drop, List.length_cons]; omega

end Piece

end TagTemplate
