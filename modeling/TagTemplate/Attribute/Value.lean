import TagTemplate.Text.Quoted
import TagTemplate.Token
import TagTemplate.Value

/-! # Attribute values

An attribute value is quoted, bare, or a list in brackets.  `AttrValue.items` cuts the inside of
brackets at the commas outside quotes; `AttrValue.item?` reads what stands between two commas. -/

namespace TagTemplate

/-- An attribute value as it is written. -/
inductive AttrValue where
  | quoted (s : String)
  | bare (s : String)
  | list (items : List AttrValue)
deriving Repr, Inhabited

namespace AttrValue

mutual

/-- The value as plain text; the items of a list with commas in between. -/
def asText : AttrValue → String
  | quoted s => s
  | bare s => s
  | list items => Value.commaSeparated (itemTexts items)

def itemTexts : List AttrValue → List String
  | [] => []
  | v :: rest => v.asText :: itemTexts rest

end

mutual

/-- The value itself: bare words are typed, quoted ones stay text. -/
def toValue : AttrValue → Value
  | quoted s => .text s
  | bare s => .ofBare s
  | list items => .list (itemValues items)

def itemValues : List AttrValue → List Value
  | [] => []
  | v :: rest => v.toValue :: itemValues rest

end

/-- The variable that a bare word `$name` refers to. -/
def referenced? : AttrValue → Option String
  | bare s => (Text.dropPrefix? ['$'] s.toList).map String.ofList
  | _ => none

/-! ### Lists -/

/-- Where a reader of a list stands: outside quotes, inside, or after a backslash inside. -/
inductive Quoting where
  | outside
  | inside (quote : Char)
  | escaped (quote : Char)
deriving DecidableEq, Repr

/-- The texts between the commas that stand outside quotes.  A quote counts as one only at the
beginning of an item; `done` holds the characters of the item so far, the latest first. -/
def slots (quoting : Quoting) (done : List Char) : List Char → List (List Char)
  | [] => [done.reverse]
  | c :: s =>
    match quoting with
    | .escaped q => slots (.inside q) (c :: done) s
    | .inside q =>
      if c = '\\' then slots (.escaped q) (c :: done) s
      else if c = q then slots .outside (c :: done) s
      else slots (.inside q) (c :: done) s
    | .outside =>
      if (c = '"' ∨ c = '\'') ∧ done.all Text.isWhiteSpace then slots (.inside c) (c :: done) s
      else if c = ',' then done.reverse :: slots .outside [] s
      else slots .outside (c :: done) s

/-- The inside of a text that begins and ends with the quote `q`. -/
def between? (q : Char) (s : List Char) : Option (List Char) :=
  (Text.dropPrefix? [q] s).bind (Text.dropSuffix? [q])

/-- The item that a slot of a list holds, none for blank space. -/
def item? (slot : List Char) : Option AttrValue :=
  let s := Text.trim slot
  if s = [] then none
  else match between? '"' s with
    | some inner => some (quoted (.ofList (Text.unquote '"' inner)))
    | none =>
      match between? '\'' s with
      | some inner => some (quoted (.ofList (Text.unquote '\'' inner)))
      | none => some (bare (.ofList s))

/-- The items of a list, from the text between its brackets. -/
def items (inside : String) : List AttrValue :=
  (slots .outside [] inside.toList).filterMap item?

def ofToken? : Token → Option AttrValue
  | .doubleQuoted s => some (quoted s)
  | .singleQuoted s => some (quoted s)
  | .bracketed s => some (list (items s))
  | .word s => some (bare s)
  | _ => none

end AttrValue

end TagTemplate
