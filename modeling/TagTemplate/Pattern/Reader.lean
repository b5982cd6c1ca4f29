import TagTemplate.Pattern.Basic
import TagTemplate.Text.CodePoint

/-! # Reading patterns

The notation of patterns: literals, `.`, classes in brackets with set operations, escapes, groups
with names and flags, alternatives, repetitions with bounds and lazy forms, and conditions on
places.  `Pattern.parse?` reads a whole text, `Pattern.escape` writes a text as a pattern for
itself.

The readers count their steps: every step takes at least one character, so the length of the text
bounds them. -/

namespace TagTemplate

namespace Pattern

/-! ### Flags -/

/-- How the notation is to be understood. -/
structure Flags where
  caseless : Bool := false
  multiLine : Bool := false
  dotAll : Bool := false
  swapGreed : Bool := false
  unicode : Bool := true
  crlf : Bool := false
  extended : Bool := false
deriving DecidableEq, Repr

namespace Flags

/-- The flags with the one of a letter set or cleared. -/
def set? (f : Flags) (letter : Char) (value : Bool) : Option Flags :=
  match letter with
  | 'i' => some { f with caseless := value }
  | 'm' => some { f with multiLine := value }
  | 's' => some { f with dotAll := value }
  | 'U' => some { f with swapGreed := value }
  | 'u' => some { f with unicode := value }
  | 'R' => some { f with crlf := value }
  | 'x' => some { f with extended := value }
  | _ => none

/-- The class, closed under change of case where case does not count. -/
def fold (f : Flags) (cs : CharClass) : CharClass :=
  if f.caseless then (if f.unicode then .caseless cs else .toAscii (.caseless cs)) else cs

/-- The class of any character, up to line ends. -/
def dot (f : Flags) : CharClass :=
  if f.dotAll then .everything
  else if f.crlf then .complement (.union (.single '\n') (.single '\r'))
  else .complement (.single '\n')

/-- The place that `^` stands for. -/
def lineStart (f : Flags) : Place :=
  if f.multiLine then (if f.crlf then .lineStartCR else .lineStart) else .textStart

/-- The place that `$` stands for. -/
def lineEnd (f : Flags) : Place :=
  if f.multiLine then (if f.crlf then .lineEndCR else .lineEnd) else .textEnd

end Flags

/-- The text without blank space and comments at its beginning. -/
def skipComments (inComment : Bool) : List Char → List Char
  | [] => []
  | c :: s =>
    if inComment then skipComments (c ≠ '\n') s
    else if Text.isWhiteSpace c then skipComments false s
    else if c = '#' then skipComments true s
    else c :: s

/-- The text at the next character that counts. -/
def skipSpace (f : Flags) (s : List Char) : List Char :=
  if f.extended then skipComments false s else s

/-! ### Escapes -/

/-- What an escape stands for. -/
inductive Escaped where
  | literal (c : Char)
  | byte (n : Nat)
  | set (cs : CharClass) (negated : Bool)
  | place (p : Place)
deriving DecidableEq, Repr

/-- The characters with a meaning of their own. -/
def isMeta (c : Char) : Bool :=
  c ∈ ['\\', '.', '+', '*', '?', '(', ')', '|', '[', ']', '\x7b', '\x7d', '^', '$', '#', '&', '-',
    '~']

/-- The characters that a backslash leaves as they are. -/
def isEscapable (c : Char) : Bool :=
  isMeta c || (c.toNat < 0x80 && !c.isAlphanum && c ≠ '<' && c ≠ '>')

/-- `count` hexadecimal digits, with blank space in between where it does not count. -/
def readHexDigits (f : Flags) : Nat → List Char → Option (List Char × List Char)
  | 0, s => some ([], s)
  | n + 1, s =>
    match s with
    | [] => none
    | c :: s =>
      if (Text.hexDigit? c).isSome then
        (readHexDigits f n (skipSpace f s)).map fun p => (c :: p.1, p.2)
      else none

/-- Characters up to a closing brace, and what follows the brace. -/
def readToBrace (f : Flags) : Nat → List Char → Option (List Char × List Char)
  | 0, _ => none
  | n + 1, s =>
    match s with
    | [] => none
    | c :: s =>
      if c = '\x7d' then some ([], s)
      else (readToBrace f n (skipSpace f s)).map fun p => (c :: p.1, p.2)

/-- A character given by its code point, after the letter `x`, `u` or `U`. -/
def readHex (f : Flags) (letter : Char) (s : List Char) : Option (Escaped × List Char) :=
  match skipSpace f s with
  | '\x7b' :: s =>
    match readToBrace f s.length (skipSpace f s) with
    | some (ds, rest) =>
      if ds = [] then none
      else ((Text.hexValue? ds).bind Text.charOf?).map fun c => (.literal c, skipSpace f rest)
    | none => none
  | s =>
    let count := if letter = 'x' then 2 else if letter = 'u' then 4 else 8
    match readHexDigits f count s with
    | some (ds, rest) =>
      ((Text.hexValue? ds).bind Text.charOf?).map fun c =>
        (if letter = 'x' then .byte c.toNat else .literal c, rest)
    | none => none

/-- The place named between braces after `\b`. -/
def placeOfName? (ascii : Bool) (name : String) : Option Place :=
  match name with
  | "start" => some (.wordStart ascii)
  | "end" => some (.wordEnd ascii)
  | "start-half" => some (.wordStartHalf ascii)
  | "end-half" => some (.wordEndHalf ascii)
  | _ => none

/-- The place after `\b`, which a name in braces can change. -/
def readBoundary (f : Flags) (s : List Char) : Option (Escaped × List Char) :=
  let plain : Escaped := .place (.boundary (!f.unicode))
  match s with
  | '\x7b' :: s' =>
    match skipSpace f s' with
    | [] => none
    | c :: r =>
      if c.isAlpha || c = '-' then
        match readToBrace f (r.length + 1) (c :: r) with
        | some (name, rest) =>
          (placeOfName? (!f.unicode) (.ofList name)).map fun p => (.place p, rest)
        | none => none
      else some (plain, s)
  | s => some (plain, s)

/-- The property that a name or an initial stands for, in the notation `\p`. -/
def propertyOfName? (name : List Char) : Option CharClass :=
  match String.ofList ((name.map Char.toLower).filter fun c => c ≠ '_' ∧ c ≠ '-' ∧ c ≠ ' ') with
  | "any" => some .everything
  | "ascii" => some .ascii
  | "nd" | "decimalnumber" | "digit" => some .digit
  | "whitespace" | "wspace" => some .space
  | _ => none

/-- The property after `\p`. -/
def readProperty (f : Flags) (negated : Bool) (s : List Char) : Option (Escaped × List Char) :=
  match skipSpace f s with
  | '\x7b' :: s =>
    match readToBrace f s.length (skipSpace f s) with
    | some (name, rest) => (propertyOfName? name).map fun cs => (.set cs negated, rest)
    | none => none
  | c :: s => (propertyOfName? [c]).map fun cs => (.set cs negated, s)
  | [] => none

/-- What follows a backslash. -/
def readEscape (f : Flags) : List Char → Option (Escaped × List Char)
  | [] => none
  | c :: s =>
    match c with
    | 'x' | 'u' | 'U' => readHex f c s
    | 'p' => readProperty f false s
    | 'P' => readProperty f true s
    | 'd' => some (.set .digit false, s)
    | 'D' => some (.set .digit true, s)
    | 's' => some (.set .space false, s)
    | 'S' => some (.set .space true, s)
    | 'w' => some (.set .word false, s)
    | 'W' => some (.set .word true, s)
    | 'a' => some (.literal '\x07', s)
    | 'f' => some (.literal '\x0c', s)
    | 't' => some (.literal '\t', s)
    | 'n' => some (.literal '\n', s)
    | 'r' => some (.literal '\r', s)
    | 'v' => some (.literal '\x0b', s)
    | 'A' => some (.place .textStart, s)
    | 'z' => some (.place .textEnd, s)
    | 'b' => readBoundary f s
    | 'B' => some (.place (.noBoundary (!f.unicode)), s)
    | '<' => some (.place (.wordStart (!f.unicode)), s)
    | '>' => some (.place (.wordEnd (!f.unicode)), s)
    | _ => if isEscapable c then some (.literal c, s) else none

/-- The class that an escaped set stands for.  Outside Unicode a set is one of ASCII, and its
complement would split characters. -/
def setClass? (f : Flags) (cs : CharClass) (negated : Bool) : Option CharClass :=
  if f.unicode then some (if negated then .complement cs else cs)
  else if negated then none else some cs.toAscii

/-- The character that an escaped number stands for.  Outside Unicode a byte above ASCII is no
character. -/
def byteChar? (f : Flags) (n : Nat) : Option Char :=
  if f.unicode || n < 0x80 then Text.charOf? n else none

/-! ### Classes in brackets -/

/-- The operations between the sets of a class. -/
inductive SetOperation where
  | intersection
  | difference
  | symmetricDifference
deriving DecidableEq, Repr

namespace SetOperation

/-- The result of an operation. -/
def apply : SetOperation → CharClass → CharClass → CharClass
  | intersection, a, b => .intersection a b
  | difference, a, b => .difference a b
  | symmetricDifference, a, b => .symmetricDifference a b

end SetOperation

/-- A class whose closing bracket is still to come: the set so far, and an operation with its left
side. -/
structure OpenClass where
  negated : Bool
  items : List CharClass := []
  pending : Option (CharClass × SetOperation) := none
deriving DecidableEq, Repr

namespace OpenClass

/-- The class with one more item. -/
def add (o : OpenClass) (cs : CharClass) : OpenClass :=
  { o with items := o.items ++ [cs] }

/-- The set after the last operation, combined with what stands before it. -/
def combined (f : Flags) (o : OpenClass) : CharClass :=
  let cs := CharClass.unionAll o.items
  match o.pending with
  | none => cs
  | some (left, op) => op.apply (f.fold left) (f.fold cs)

/-- The class after an operation sign. -/
def operate (f : Flags) (o : OpenClass) (op : SetOperation) : OpenClass :=
  { negated := o.negated, pending := some (o.combined f, op) }

/-- The class at its closing bracket. -/
def close (f : Flags) (o : OpenClass) : CharClass :=
  let cs := f.fold (o.combined f)
  if o.negated then .complement cs else cs

/-- All characters that the class names are characters of ASCII. -/
def isAscii (o : OpenClass) : Bool :=
  !o.negated

end OpenClass

/-- The hyphens at the beginning of a class, or a closing bracket in their place, are literal. -/
def readClassStart (f : Flags) : Nat → OpenClass → List Char → Option (OpenClass × List Char)
  | 0, _, _ => none
  | n + 1, o, s =>
    match s with
    | [] => none
    | c :: s' =>
      if c = '-' then readClassStart f n (o.add (.single '-')) (skipSpace f s')
      else if c = ']' ∧ o.items = [] then
        match skipSpace f s' with
        | [] => none
        | s' => some (o.add (.single ']'), s')
      else some (o, s)

/-- The beginning of a class, after its opening bracket. -/
def openClass (f : Flags) (s : List Char) : Option (OpenClass × List Char) :=
  match skipSpace f s with
  | '^' :: s => readClassStart f (s.length + 1) { negated := true } (skipSpace f s)
  | s => readClassStart f (s.length + 1) { negated := false } s

/-- A class of ASCII named between colons, after its opening bracket. -/
def readNamedClass? : List Char → Option (CharClass × List Char)
  | ':' :: s =>
    let (negated, s) := match s with
      | '^' :: s => (true, s)
      | s => (false, s)
    match Text.dropPrefix? [':', ']'] (s.dropWhile (· ≠ ':')) with
    | some rest =>
      (CharClass.ofName? (.ofList (s.takeWhile (· ≠ ':')))).map fun cs =>
        (if negated then .complement cs else cs, rest)
    | none => none
  | _ => none

/-- One side of a range: a character, or a whole set. -/
def readClassItem (f : Flags) : List Char → Option ((Char ⊕ CharClass) × List Char)
  | [] => none
  | '\\' :: s =>
    match readEscape f s with
    | some (.literal c, rest) => some (.inl c, rest)
    | some (.byte n, rest) => (byteChar? f n).map fun c => (.inl c, rest)
    | some (.set cs negated, rest) => (setClass? f cs negated).map fun cs => (.inr cs, rest)
    | some (.place _, _) => none
    | none => none
  | c :: s => if f.unicode || c.toNat < 0x80 then some (.inl c, s) else none

def sideClass : Char ⊕ CharClass → CharClass
  | .inl c => .single c
  | .inr cs => cs

/-- A range, or one item that is not followed by a hyphen and another side. -/
def readClassRange (f : Flags) (s : List Char) : Option (CharClass × List Char) :=
  match readClassItem f s with
  | none => none
  | some (first, rest) =>
    match skipSpace f rest with
    | '-' :: rest' =>
      match skipSpace f rest' with
      | [] => none
      | next :: rest'' =>
        if next = ']' ∨ next = '-' then some (sideClass first, '-' :: rest')
        else
          match first, readClassItem f (next :: rest'') with
          | .inl a, some (.inl b, rest) => if a ≤ b then some (.range a b, rest) else none
          | _, _ => none
    | rest => some (sideClass first, rest)

/-- The rest of a class; `outer` holds the classes around it, the nearest first. -/
def readClass (f : Flags) : Nat → OpenClass → List OpenClass → List Char →
    Option (CharClass × List Char)
  | 0, _, _, _ => none
  | n + 1, o, outer, s =>
    match skipSpace f s with
    | [] => none
    | '[' :: s =>
      match readNamedClass? s with
      | some (cs, rest) => readClass f n (o.add cs) outer rest
      | none =>
        match openClass f s with
        | some (inner, rest) => readClass f n inner (o :: outer) rest
        | none => none
    | ']' :: s =>
      if !f.unicode && !o.isAscii then none
      else
        match outer with
        | [] => some (o.close f, s)
        | o' :: outer => readClass f n (o'.add (o.close f)) outer s
    | '&' :: '&' :: s => readClass f n (o.operate f .intersection) outer s
    | '-' :: '-' :: s => readClass f n (o.operate f .difference) outer s
    | '~' :: '~' :: s => readClass f n (o.operate f .symmetricDifference) outer s
    | s =>
      match readClassRange f s with
      | some (cs, rest) => readClass f n (o.add cs) outer rest
      | none => none

/-! ### Groups -/

/-- An item of a sequence.  A change of flags matches nothing and cannot be repeated. -/
inductive Item where
  | pattern (p : Pattern)
  | flags
deriving DecidableEq, Repr

def Item.toPattern : Item → Pattern
  | pattern p => p
  | flags => .empty

/-- A group whose closing parenthesis is still to come: its name, the flags around it, the
alternatives so far and the items of the current one, the latest first. -/
structure OpenGroup where
  name : Option String := none
  outer : Flags := {}
  branches : List Pattern := []
  items : List Item := []
deriving DecidableEq, Repr

namespace OpenGroup

/-- The group with one more item. -/
def add (g : OpenGroup) (p : Pattern) : OpenGroup :=
  { g with items := .pattern p :: g.items }

/-- The current alternative. -/
def branch (g : OpenGroup) : Pattern :=
  seqAll (g.items.reverse.map Item.toPattern)

/-- The group after a bar. -/
def alternate (g : OpenGroup) : OpenGroup :=
  { g with branches := g.branch :: g.branches, items := [] }

def body (g : OpenGroup) : Pattern :=
  altAll (g.branch :: g.branches).reverse

def close (g : OpenGroup) : Pattern :=
  match g.name with
  | none => g.body
  | some name => .group name g.body

/-- The group with its last item repeated. -/
def repeatLast? (g : OpenGroup) (greedy : Bool) (least : Nat) (most : Option Nat) :
    Option OpenGroup :=
  match g.items with
  | .pattern p :: rest =>
    let copies := max least (most.getD 0) + 1
    if maxWeight < weight p * copies then none
    else some { g with items := .pattern (repeated greedy p least most) :: rest }
  | _ => none

end OpenGroup

/-- The name of a group, up to the closing angle bracket. -/
def readName (s : List Char) : Option (String × List Char) :=
  let name := s.takeWhile (· ≠ '>')
  let isStart := fun c => c = '_' || Text.isAlphabetic c
  let isPart := fun c => isStart c || Text.isNumeric c || c = '.' || c = '[' || c = ']'
  match name, s.dropWhile (· ≠ '>') with
  | first :: others, _ :: rest =>
    if isStart first && others.all isPart then some (.ofList name, rest) else none
  | _, _ => none

/-- The flags before `:` or `)`.  Each letter stands once, and one hyphen clears those after it. -/
def readFlags (f : Flags) : List Char → List Char → Option (Flags × List Char × List Char)
  | used, c :: s =>
    if c = ':' ∨ c = ')' then
      if used.head? = some '-' then none else some (f, used, c :: s)
    else if used.contains c then none
    else if c = '-' then readFlags f ('-' :: used) s
    else
      match f.set? c (!used.contains '-') with
      | some f => readFlags f (c :: used) s
      | none => none
  | _, [] => none

/-- What an opening parenthesis begins. -/
inductive GroupStart where
  | group (name : Option String) (inner : Flags)
  | flags (changed : Flags)
deriving DecidableEq, Repr

/-- The beginning of a group, after its opening parenthesis. -/
def readGroupStart (f : Flags) (s : List Char) : Option (GroupStart × List Char) :=
  match skipSpace f s with
  | '?' :: 'P' :: '<' :: s => (readName s).map fun p => (.group (some p.1) f, p.2)
  | '?' :: '<' :: s =>
    if s.head? = some '=' ∨ s.head? = some '!' then none
    else (readName s).map fun p => (.group (some p.1) f, p.2)
  | '?' :: s =>
    match readFlags f [] s with
    | some (f, used, ')' :: rest) => if used = [] then none else some (.flags f, rest)
    | some (f, _, _ :: rest) => some (.group none f, rest)
    | _ => none
  | s => some (.group none f, s)

/-! ### Repetitions -/

/-- A bound of a repetition: digits with blank space around them. -/
def readBound (f : Flags) (s : List Char) : Option (Option Nat × List Char) :=
  let s := s.dropWhile Text.isWhiteSpace
  let ds := s.takeWhile Char.isDigit
  let n := ds.foldl (fun n c => 10 * n + (c.toNat - 48)) 0
  let rest := (skipSpace f (s.dropWhile Char.isDigit)).dropWhile Text.isWhiteSpace
  if ds = [] then some (none, rest)
  else if n < Nat.pow 2 32 then some (some n, rest) else none

/-- The bounds of a repetition, after the opening brace. -/
def readBounds (f : Flags) (s : List Char) : Option ((Nat × Option Nat) × List Char) :=
  match readBound f (skipSpace f s) with
  | some (some least, '\x7d' :: rest) => some ((least, some least), rest)
  | some (some least, ',' :: rest) =>
    match skipSpace f rest with
    | '\x7d' :: rest => some ((least, none), rest)
    | rest =>
      match readBound f rest with
      | some (some most, '\x7d' :: rest) =>
        if least ≤ most then some ((least, some most), rest) else none
      | _ => none
  | _ => none

/-- A question mark makes a repetition lazy; swapped greed turns both around. -/
def readGreed (f : Flags) (s : List Char) : Bool × List Char :=
  match s with
  | '?' :: rest => (f.swapGreed, rest)
  | s => (!f.swapGreed, s)

/-! ### Patterns -/

def literal (f : Flags) (c : Char) : Pattern :=
  .char (if f.unicode || c.toNat < 0x80 then f.fold (.single c) else .single c)

def escapedPattern? (f : Flags) : Escaped → Option Pattern
  | .literal c => some (literal f c)
  | .byte n => (byteChar? f n).map (literal f)
  | .set cs negated => (setClass? f cs negated).map .char
  | .place p => some (.place p)

/-- The rest of a pattern inside the group `g`; `outer` holds the groups around it, the nearest
first, and `names` the group names in use. -/
def read : Nat → Flags → List String → OpenGroup → List OpenGroup → List Char → Option Pattern
  | 0, _, _, _, _, _ => none
  | n + 1, f, names, g, outer, s =>
    match skipSpace f s with
    | [] =>
      match outer with
      | [] => some g.body
      | _ :: _ => none
    | '(' :: s =>
      match readGroupStart f s with
      | some (.flags f, rest) => read n f names { g with items := .flags :: g.items } outer rest
      | some (.group none inner, rest) => read n inner names { outer := f } (g :: outer) rest
      | some (.group (some name) inner, rest) =>
        if names.contains name then none
        else read n inner (name :: names) { name := some name, outer := f } (g :: outer) rest
      | none => none
    | ')' :: s =>
      match outer with
      | [] => none
      | g' :: outer => read n g.outer names (g'.add g.close) outer s
    | '|' :: s => read n f names g.alternate outer s
    | '[' :: s =>
      match openClass f s with
      | some (o, rest) =>
        match readClass f n o [] rest with
        | some (cs, rest) => read n f names (g.add (.char cs)) outer rest
        | none => none
      | none => none
    | '*' :: s =>
      let (greedy, rest) := readGreed f s
      match g.repeatLast? greedy 0 none with
      | some g => read n f names g outer rest
      | none => none
    | '+' :: s =>
      let (greedy, rest) := readGreed f s
      match g.repeatLast? greedy 1 none with
      | some g => read n f names g outer rest
      | none => none
    | '?' :: s =>
      let (greedy, rest) := readGreed f s
      match g.repeatLast? greedy 0 (some 1) with
      | some g => read n f names g outer rest
      | none => none
    | '\x7b' :: s =>
      match readBounds f s with
      | some ((least, most), rest) =>
        let (greedy, rest) := readGreed f (skipSpace f rest)
        match g.repeatLast? greedy least most with
        | some g => read n f names g outer rest
        | none => none
      | none => none
    | '\\' :: s =>
      match readEscape f s with
      | some (e, rest) =>
        match escapedPattern? f e with
        | some p => read n f names (g.add p) outer rest
        | none => none
      | none => none
    | '.' :: s =>
      if f.unicode then read n f names (g.add (.char f.dot)) outer s else none
    | '^' :: s => read n f names (g.add (.place f.lineStart)) outer s
    | '$' :: s => read n f names (g.add (.place f.lineEnd)) outer s
    | c :: s => read n f names (g.add (literal f c)) outer s

/-- The pattern that a text denotes. -/
def parse? (source : String) : Option Pattern :=
  let s := source.toList
  (read (s.length + 1) {} [] {} [] s).filter fun p => weight p ≤ maxWeight

/-- The names of the groups of a pattern, from left to right. -/
def groupNames : Pattern → List String
  | seq a b => groupNames a ++ groupNames b
  | alt a b => groupNames a ++ groupNames b
  | star _ a => groupNames a
  | group name a => name :: groupNames a
  | _ => []

/-- A text as a pattern for itself. -/
def escape (s : String) : String :=
  .ofList (s.toList.flatMap fun c => if isMeta c then ['\\', c] else [c])

end Pattern

end TagTemplate
