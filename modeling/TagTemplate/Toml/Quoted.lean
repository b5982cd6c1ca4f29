import TagTemplate.Text.CodePoint

/-! # Quoted text in TOML

Text between `"` has escapes, text between `'` has none.  A quote written three times opens a text
of several lines, which drops a line end right after the opening.  A reader first cuts the body
out, then `unescape` turns its escapes into characters. -/

namespace TagTemplate.Toml

/-- A space or a tab. -/
def isBlank (c : Char) : Bool :=
  c = ' ' ∨ c = '\t'

/-- A character that texts and comments can hold: no control character but the tab. -/
def isPlain (c : Char) : Bool :=
  c = '\t' ∨ ' ' ≤ c ∧ c ≠ '\x7f'

/-- The text after a line end. -/
def newline? : List Char → Option (List Char)
  | '\n' :: s => some s
  | '\r' :: '\n' :: s => some s
  | _ => none

/-! ### Escapes -/

/-- The character of `count` hexadecimal digits. -/
def codePoint? (count : Nat) (s : List Char) : Option (Char × List Char) :=
  let digits := s.take count
  if digits.length = count then
    ((Text.hexValue? digits).bind Text.charOf?).map fun c => (c, s.drop count)
  else none

/-- The character of an escape, after its backslash. -/
def escaped? : List Char → Option (Char × List Char)
  | [] => none
  | c :: s =>
    match c with
    | 'b' => some ('\x08', s)
    | 't' => some ('\t', s)
    | 'n' => some ('\n', s)
    | 'f' => some ('\x0c', s)
    | 'r' => some ('\r', s)
    | '"' => some ('"', s)
    | '\\' => some ('\\', s)
    | 'u' => codePoint? 4 s
    | 'U' => codePoint? 8 s
    | _ => none

/-- The text after a backslash that ends its line, up to the next character that is not blank. -/
def continued? (s : List Char) : Option (List Char) :=
  match s.dropWhile isBlank with
  | '\n' :: s => some (s.dropWhile fun c => isBlank c || c = '\n')
  | _ => none

/-- The text that a body with escapes stands for.  Every step takes a character, so the length of
the body is steps enough. -/
def unescape : Nat → List Char → Option (List Char)
  | _, [] => some []
  | 0, _ :: _ => none
  | n + 1, c :: s =>
    if c = '\\' then
      match continued? s with
      | some s => unescape n s
      | none =>
        match escaped? s with
        | some (e, s) => (unescape n s).map (e :: ·)
        | none => none
    else (unescape n s).map (c :: ·)

/-! ### Bodies -/

/-- The body of a text on one line, up to the closing quote, and what follows. -/
def shortBody (quote : Char) (escapes : Bool) : List Char → Option (List Char × List Char)
  | [] => none
  | c :: s =>
    if c = quote then some ([], s)
    else if !isPlain c then none
    else if c = '\\' && escapes then
      match s with
      | d :: s =>
        if isPlain d then (shortBody quote escapes s).map fun p => (c :: d :: p.1, p.2) else none
      | [] => none
    else (shortBody quote escapes s).map fun p => (c :: p.1, p.2)

/-- The end of a text of several lines: three quotes, before which up to two belong to it. -/
def closing? (quote : Char) (s : List Char) : Option (List Char × List Char) :=
  let run := (s.takeWhile (· = quote)).length
  if run < 3 then none
  else
    let kept := min (run - 3) 2
    some (.replicate kept quote, s.drop (kept + 3))

/-- The body of a text of several lines, each line end as a line feed, and what follows. -/
def longBody (quote : Char) (escapes : Bool) : List Char → Option (List Char × List Char)
  | [] => none
  | c :: s =>
    match closing? quote (c :: s) with
    | some p => some p
    | none =>
      if c = '\n' then (longBody quote escapes s).map fun p => (c :: p.1, p.2)
      else if c = '\r' then
        if s.head? = some '\n' then longBody quote escapes s else none
      else if !isPlain c then none
      else if c = '\\' && escapes then
        match s with
        | d :: s =>
          if isPlain d then (longBody quote escapes s).map fun p => (c :: d :: p.1, p.2)
          else (longBody quote escapes (d :: s)).map fun p => (c :: p.1, p.2)
        | [] => none
      else (longBody quote escapes s).map fun p => (c :: p.1, p.2)

/-! ### Texts -/

def bodyText? (escapes : Bool) (body : List Char) : Option String :=
  if escapes then (unescape body.length body).map String.ofList else some (.ofList body)

def isQuote (c : Char) : Bool :=
  c = '"' ∨ c = '\''

/-- A text on one line, after its opening quote, and what follows. -/
def readShort (quote : Char) (s : List Char) : Option (String × List Char) :=
  (shortBody quote (quote = '"') s).bind fun (body, rest) =>
    (bodyText? (quote = '"') body).map (·, rest)

/-- A text of several lines, after its opening quotes, and what follows. -/
def readLong (quote : Char) (s : List Char) : Option (String × List Char) :=
  (longBody quote (quote = '"') ((newline? s).getD s)).bind fun (body, rest) =>
    (bodyText? (quote = '"') body).map (·, rest)

/-- A quoted text of either kind, after its first quote, and what follows. -/
def readQuoted (quote : Char) (s : List Char) : Option (String × List Char) :=
  if s.take 2 = [quote, quote] then readLong quote (s.drop 2) else readShort quote s

end TagTemplate.Toml
