import TagTemplate.Toml.Quoted
import TagTemplate.Toml.Scalar
import TagTemplate.Toml.Table

/-! # Reading TOML documents

A document has entries `key = value` at its top and below headers, one to a line.  `Toml.read?`
reads a whole document.

Values nest to a bounded depth, on which `readValue` recurses; the loops over items and lines count
their steps, and since every step takes a character the length of the text is steps enough. -/

namespace TagTemplate.Toml

/-! ### Blanks -/

/-- The text without blanks at its beginning. -/
def skipBlanks (s : List Char) : List Char :=
  s.dropWhile isBlank

/-- The text without blanks, line ends and comments at its beginning. -/
def skipLines (comment : Bool) : List Char → List Char
  | [] => []
  | '\n' :: s => skipLines false s
  | '\r' :: '\n' :: s => skipLines false s
  | c :: s =>
    if comment then if isPlain c then skipLines true s else c :: s
    else if isBlank c then skipLines false s
    else if c = '#' then skipLines true s
    else c :: s

/-- The text after the end of a line on which only blanks and a comment are left. -/
def lineEnd? (s : List Char) : Option (List Char) :=
  let s := match skipBlanks s with
    | '#' :: s => s.dropWhile isPlain
    | s => s
  if s = [] then some [] else newline? s

/-! ### Keys -/

/-- The deepest nesting of values and the longest dotted key. -/
def maxNesting : Nat := 79

/-- The character can stand in a key without quotes. -/
def isKeyChar (c : Char) : Bool :=
  c.isAlphanum || c = '_' || c = '-'

def readKeyPart : List Char → Option (String × List Char)
  | [] => none
  | c :: s =>
    if isQuote c then readShort c s
    else
      let name := (c :: s).takeWhile isKeyChar
      if name = [] then none else some (.ofList name, (c :: s).dropWhile isKeyChar)

/-- A dotted key of at most `n` parts with blanks around them, and what follows. -/
def readKey : Nat → List Char → Option (List String × List Char)
  | 0, _ => none
  | n + 1, s =>
    match readKeyPart (skipBlanks s) with
    | none => none
    | some (part, s) =>
      match skipBlanks s with
      | '.' :: s => (readKey n s).map fun p => (part :: p.1, p.2)
      | s => some ([part], s)

/-! ### Values -/

/-- A value without parts, and what follows. -/
def readScalar : List Char → Option (Toml × List Char)
  | [] => none
  | c :: s =>
    if isQuote c then (readQuoted c s).map fun p => (.text p.1, p.2)
    else
      let (word, rest) := splitWord (c :: s)
      (word? word).map (·, rest)

/-- The items of an array, after its bracket or a comma, and what follows the array. -/
def readItems (value : List Char → Option (Toml × List Char)) :
    Nat → List Char → Option (List Toml × List Char)
  | 0, _ => none
  | n + 1, s =>
    match skipLines false s with
    | ']' :: s => some ([], s)
    | s =>
      match value s with
      | none => none
      | some (v, s) =>
        match skipLines false s with
        | ']' :: s => some ([v], s)
        | ',' :: s => (readItems value n s).map fun p => (v :: p.1, p.2)
        | _ => none

/-- A key and its value, and what follows. -/
def readEntry (value : List Char → Option (Toml × List Char)) (s : List Char) :
    Option ((List String × Toml) × List Char) :=
  match readKey maxNesting s with
  | some (key, '=' :: s) => (value (skipBlanks s)).map fun p => ((key, p.1), p.2)
  | _ => none

/-- The entries of a table in braces, after its brace or a comma, and what follows the table. -/
def readFields (value : List Char → Option (Toml × List Char)) :
    Nat → List Char → Option (List (List String × Toml) × List Char)
  | 0, _ => none
  | n + 1, s =>
    match readEntry value s with
    | none => none
    | some (e, s) =>
      match skipBlanks s with
      | '\x7d' :: s => some ([e], s)
      | ',' :: s => (readFields value n s).map fun p => (e :: p.1, p.2)
      | _ => none

/-- A table in braces, after its brace, and what follows. -/
def readInline (value : List Char → Option (Toml × List Char)) (s : List Char) :
    Option (Toml × List Char) :=
  match skipBlanks s with
  | '\x7d' :: s => some (.table ∅, s)
  | s =>
    (readFields value s.length s).bind fun (entries, s) =>
      (assemble entries []).map fun fields => (.table fields, s)

/-- A value that nests at most `depth` deep, and what follows. -/
def readValue : Nat → List Char → Option (Toml × List Char)
  | depth + 1, '[' :: s =>
    (readItems (readValue depth) (s.length + 1) s).map fun p => (.array p.1, p.2)
  | depth + 1, '\x7b' :: s => readInline (readValue depth) s
  | _, s => readScalar s

/-! ### Documents -/

/-- The entries up to the next header or the end, and what follows. -/
def readEntries : Nat → List Char → Option (List (List String × Toml) × List Char)
  | 0, s => some ([], s)
  | n + 1, s =>
    match skipLines false s with
    | [] => some ([], [])
    | '[' :: s => some ([], '[' :: s)
    | s =>
      match readEntry (readValue maxNesting) s with
      | none => none
      | some (e, s) =>
        (lineEnd? s).bind fun s => (readEntries n s).map fun p => (e :: p.1, p.2)

/-- A header, and what follows its line. -/
def readHeading : List Char → Option (Heading × List Char)
  | '[' :: '[' :: s =>
    match readKey maxNesting s with
    | some (path, ']' :: ']' :: s) => (lineEnd? s).map (.element path, ·)
    | _ => none
  | '[' :: s =>
    match readKey maxNesting s with
    | some (path, ']' :: s) => (lineEnd? s).map (.table path, ·)
    | _ => none
  | _ => none

/-- The sections up to the end. -/
def readSections : Nat → List Char → Option (List Section)
  | _, [] => some []
  | 0, _ :: _ => none
  | n + 1, s =>
    (readHeading s).bind fun (heading, s) =>
      (readEntries (s.length + 1) s).bind fun (entries, s) =>
        (readSections n s).map (⟨heading, entries⟩ :: ·)

/-- The table of a whole document, which may start with a byte order mark. -/
def read? (document : String) : Option (NameMap Toml) :=
  let s := match document.toList with
    | '\uFEFF' :: s => s
    | s => s
  (readEntries (s.length + 1) s).bind fun (top, s) =>
    (readSections s.length s).bind (assemble top)

end TagTemplate.Toml
