import TagTemplate.Document.Basic
import TagTemplate.Tag.Body
import TagTemplate.Tag.Scanner
import TagTemplate.Text.Position

/-! # Fragments

A template text is read as a sequence of parts: literal text, tags, and blocks with an inside of
their own.

* `TagScanner.closer?` finds the closing tag of a block, counting the blocks of the same tag on
  the way and stepping over the raw blocks of other tags.
* `TagScanner.read` lists the parts of a text, and the blocks that are never closed; the text of
  these stays literal.
* `Document.readFragment` puts the parts of a text into a document, children before parents. -/

namespace TagTemplate

/-- A part of a template text. -/
inductive Part where
  | literal (text : String) (span : Span)
  | leaf (tag : TagDefinition) (body matched : String) (span : Span)
  | raw (tag : TagDefinition) (body inside : String) (span : Span)
  | block (tag : TagDefinition) (body inside : String) (parts : List Part) (span : Span)
deriving Repr

/-- The parts of a text, and the blocks never closed. -/
structure Reading where
  parts : List Part := []
  errors : List ParseError := []
deriving Repr

namespace TagScanner

/-! ### Closing tags -/

/-- Nothing is stepped over. -/
def noSkip : Nat → Nat → Option Nat :=
  fun _ _ => none

/-- The closing tag where as many blocks have been closed as were opened, when `depth` blocks are
open inside the one in question.  `skip` gives the end of what is to be stepped over between a
position and a limit. -/
def balance (opener closer : Pattern) (skip : Nat → Nat → Option Nat) (text : Array Char)
    (depth pos : Nat) : Option (Nat × Nat) :=
  match closer.find? text pos with
  | none => none
  | some close =>
    let next := opener.find? text pos
    let limit := next.elim close.start fun o => min o.start close.start
    match skip pos limit with
    | some stop =>
      if _h : pos < stop ∧ stop ≤ text.size then balance opener closer skip text depth stop
      else none
    | none =>
      match next.filter fun o => o.start < close.start with
      | some o =>
        if _h : pos < o.stop ∧ o.stop ≤ text.size then
          balance opener closer skip text (depth + 1) o.stop
        else none
      | none =>
        match depth with
        | 0 => some (close.start, close.stop)
        | depth + 1 =>
          if _h : pos ≤ close.stop ∧ close.stop ≤ text.size then
            balance opener closer skip text depth close.stop
          else none
termination_by (text.size - pos, depth)
decreasing_by
  · exact Prod.Lex.left _ _ (by omega)
  · exact Prod.Lex.left _ _ (by omega)
  · rcases Nat.lt_or_ge pos close.stop with hp | hp
    · exact Prod.Lex.left _ _ (by omega)
    · rw [show close.stop = pos by omega]
      exact Prod.Lex.right _ (by omega)

/-- The closing tag of a block whose inside begins at `pos`, nothing stepped over. -/
def plainCloser? (m : TagMatcher) (text : Array Char) (pos : Nat) : Option (Nat × Nat) :=
  m.closer.bind fun c => balance m.opener.pattern c.pattern noSkip text 0 pos

/-- The raw blocks of other tags that open from `pos` on and before `limit`, the next one of each
tag. -/
def rawOpeners (s : TagScanner) (tag : String) (text : Array Char) (pos limit : Nat) :
    List (TagMatcher × Pattern.Match) :=
  s.matchers.filterMap fun m =>
    if m.tag.rawBody ∧ m.tag.name ≠ tag then
      ((m.opener.pattern.find? text pos).filter fun o => o.start < limit).map (m, ·)
    else none

/-- The one that opens first; of two at one place the first in the list. -/
def earliest : List (TagMatcher × Pattern.Match) → Option (TagMatcher × Pattern.Match)
  | [] => none
  | a :: rest =>
    match earliest rest with
    | none => some a
    | some b => if b.2.start < a.2.start then some b else some a

/-- The end of the first raw block of another tag that opens from `pos` on and before `limit`, if
it is closed. -/
def skipRaw (s : TagScanner) (tag : String) (text : Array Char) (pos limit : Nat) : Option Nat :=
  (earliest (s.rawOpeners tag text pos limit)).bind fun (m, o) =>
    (plainCloser? m text o.stop).map (·.2)

/-- The closing tag of a block whose inside begins at `pos`. -/
def closer? (s : TagScanner) (m : TagMatcher) (text : Array Char) (pos : Nat) :
    Option (Nat × Nat) :=
  if m.tag.rawBody then plainCloser? m text pos
  else m.closer.bind fun c =>
    balance m.opener.pattern c.pattern (s.skipRaw m.tag.name text) text 0 pos

/-! ### Parts -/

/-- The characters from one position to another. -/
def slice (text : Array Char) (start stop : Nat) : List Char :=
  (text.extract start stop).toList

/-- The span of two positions in a text whose first byte is at `base`. -/
def spanOf (base : Nat) (text : Array Char) (start stop : Nat) : Span :=
  ⟨base + Text.offsetOf text.toList start, base + Text.offsetOf text.toList stop⟩

/-- The literal part between two positions, if it is not empty. -/
def literalPart (base : Nat) (text : Array Char) (start stop : Nat) : List Part :=
  if start < stop then
    [.literal (.ofList (slice text start stop)) (spanOf base text start stop)]
  else []

/-- The parts of a text whose first byte is at `base`, from the position `cursor` on; the literal
text before it begins at `start`.  A tag that takes no character and so would be found again and
again is literal, with all that follows, and so is a block whose inside is the whole text again. -/
def readFrom (s : TagScanner) (base : Nat) (text : Array Char) (start cursor : Nat) : Reading :=
  match s.find? text cursor with
  | none => { parts := literalPart base text start text.size }
  | some m =>
    let before := literalPart base text start m.start
    let matched := slice text m.start m.stop
    let body := String.ofList (m.tag.body s.delimiters matched)
    if !m.tag.isBlock then
      if _h : cursor < m.stop ∧ m.stop ≤ text.size then
        let rest := s.readFrom base text m.stop m.stop
        let leaf := Part.leaf m.tag body (.ofList matched) (spanOf base text m.start m.stop)
        { rest with parts := before ++ leaf :: rest.parts }
      else { parts := literalPart base text start text.size }
    else
      match s.closer? m.matcher text m.stop with
      | some (close, stop) =>
        if _h : cursor < stop ∧ stop ≤ text.size then
          let inside := slice text m.stop close
          let span := spanOf base text m.start stop
          let inner : Reading :=
            if m.tag.rawBody then { parts := [.raw m.tag body (.ofList inside) span] }
            else if _h : close - m.stop < text.size then
              let r := s.readFrom (base + Text.offsetOf text.toList m.stop)
                (text.extract m.stop close) 0 0
              { r with parts := [.block m.tag body (.ofList inside) r.parts span] }
            else { parts := literalPart base text m.start stop }
          let rest := s.readFrom base text stop stop
          { parts := before ++ inner.parts ++ rest.parts, errors := inner.errors ++ rest.errors }
        else { parts := literalPart base text start text.size }
      | none =>
        if _h : cursor < m.stop ∧ m.stop ≤ text.size then
          let rest := s.readFrom base text start m.stop
          { rest with
            errors := .unclosedBlock m.tag.name (spanOf base text m.start m.stop) :: rest.errors }
        else { parts := literalPart base text start text.size }
termination_by (text.size, text.size - cursor)
decreasing_by
  · exact Prod.Lex.right _ (by omega)
  · exact Prod.Lex.left _ _ (by simp only [Array.size_extract]; omega)
  · exact Prod.Lex.right _ (by omega)
  · exact Prod.Lex.right _ (by omega)

def read (s : TagScanner) (source : String) : Reading :=
  s.readFrom 0 source.toList.toArray 0 0

end TagScanner

/-! ### Parts as nodes -/

namespace Document

mutual

/-- The document with the nodes of a part, children before parents, and the number of the last
one. -/
def pushPart (d : Document) : Part → Document × Nat
  | .literal text span => (d.push (.literal text span), d.size)
  | .leaf tag body matched span =>
    (d.push (.ofTag tag body (.text matched) none span), d.size)
  | .raw tag body inside span =>
    (d.push (.ofTag tag body (.text inside) (some inside) span), d.size)
  | .block tag body inside parts span =>
    let (d, ids) := pushParts d parts
    (d.push (.ofTag tag body (.children ids) (some inside) span), d.size)

/-- The document with the nodes of a list of parts, and the number of each part. -/
def pushParts (d : Document) : List Part → Document × List Nat
  | [] => (d, [])
  | part :: rest =>
    let (d, id) := pushPart d part
    let (d, ids) := pushParts d rest
    (d, id :: ids)

end

/-- The document with the nodes of a template text, and the number of its root, or the errors of
the text. -/
def readFragment (d : Document) (s : TagScanner) (source : String) :
    Document × Except (List ParseError) Nat :=
  let reading := s.read source
  let (d, ids) := d.pushParts reading.parts
  if reading.errors.isEmpty then
    (d.push (.root ids ⟨0, source.utf8ByteSize⟩), .ok d.size)
  else (d, .error reading.errors)

end Document

end TagTemplate
