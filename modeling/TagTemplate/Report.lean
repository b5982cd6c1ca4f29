import TagTemplate.ParseError
import TagTemplate.Text.Lines
import TagTemplate.Text.Width

/-! # Reports of errors

A report shows an error for a terminal: its message, the line of the source where it is, and below
that line a label with an arrow.  Places are counted in characters.

* `Report.ofError` says what is reported of an error.
* `Report.excerpt?` finds the line and the columns of the label.
* `Report.render` writes the report, with escape sequences for its colours. -/

namespace TagTemplate

/-- What is reported: a message, and a label for a place in the source. -/
structure Report where
  message : String
  label : String
  span : Span
deriving DecidableEq, Repr

/-- The line of a source that a label is about, with the columns of the label.  Lines and columns
are counted from zero, and the columns can reach beyond the line. -/
structure Excerpt where
  line : Nat
  text : List Char
  start : Nat
  stop : Nat
deriving DecidableEq, Repr

namespace Report

def ofError : ParseError → Report
  | .malformed span fault expected =>
    let hint := if expected.isEmpty then ""
      else "\nExpected: " ++ ", ".intercalate (expected.map Expectation.text)
    ⟨fault.message, fault.message ++ hint, span⟩
  | .unclosedBlock tag span =>
    ⟨"unclosed block '" ++ tag ++ "'", "'" ++ tag ++ "' is opened here but never closed", span⟩

/-! ### Excerpts -/

/-- The place lies in a text of `length` characters, or right behind it. -/
def isInside (length : Nat) (span : Span) : Bool :=
  span.start ≤ length && (span.stop ≤ span.start || span.stop - 1 ≤ length)

/-- The excerpt for a place, when it lies inside the source. -/
def excerpt? (source : List Char) (span : Span) : Option Excerpt :=
  if isInside source.length span then
    let lines := Text.lines source
    let (line, column) := Text.locate lines span.start
    some ⟨line, lines[line]?.getD [], column, column + (span.stop - span.start)⟩
  else none

end Report

namespace Excerpt

/-- The label lies within the line. -/
def isWithinLine (e : Excerpt) : Bool :=
  e.stop ≤ e.text.length

def shownText (e : Excerpt) : List Char :=
  Text.dropEndWhile Text.isWhiteSpace e.text

/-- The column belongs to the label. -/
def isMarked (e : Excerpt) (column : Nat) : Bool :=
  e.start ≤ column && column < e.stop

/-- The column that the arrow starts from. -/
def middle (e : Excerpt) : Nat :=
  (e.start + e.stop) / 2

/-- The columns that the marks below the line reach over. -/
def reach (e : Excerpt) : Nat :=
  e.stop + 2

/-- The line and the column as they are written, counted from one. -/
def place (e : Excerpt) : String :=
  ":" ++ toString (e.line + 1) ++ ":" ++ toString (e.start + 1)

end Excerpt

namespace Report

/-! ### Colours -/

/-- The colours of a report. -/
inductive Ink where
  | label
  | frame
  | gap
  | source
deriving DecidableEq, Repr

def Ink.code : Ink → String
  | label => "31"
  | frame => "38;5;246"
  | gap => "38;5;240"
  | source => "38;5;249"

def paint (ink : Ink) (text : String) : String :=
  "\x1b[" ++ ink.code ++ "m" ++ text ++ "\x1b[0m"

def repeated (count : Nat) (text : String) : String :=
  String.join (.replicate count text)

def spaces (count : Nat) : String :=
  repeated count " "

/-! ### Rows -/

/-- The widths of the columns of a line from `column` on; beyond its end each is one. -/
def columnWidths (column : Nat) : Nat → List Char → List Nat
  | 0, _ => []
  | count + 1, [] => 1 :: columnWidths (column + 1) count []
  | count + 1, c :: s => Text.widthAt column c :: columnWidths (column + 1) count s

/-- What is drawn in a column: at its beginning, and over the rest of its width. -/
structure Stroke where
  head : String
  tail : String
deriving DecidableEq, Repr

/-- A stroke over a width. -/
def Stroke.draw (s : Stroke) (width : Nat) : String :=
  if width = 0 then "" else s.head ++ repeated (width - 1) s.tail

def blank : Stroke :=
  ⟨" ", " "⟩

/-- A line drawn through. -/
def rule : Stroke :=
  ⟨paint .label "─", paint .label "─"⟩

/-- The stroke right below the line. -/
def underline (e : Excerpt) (column : Nat) : Stroke :=
  if column = e.middle then
    if e.isMarked column then ⟨paint .label "┬", paint .label "─"⟩
    else ⟨paint .label "│", paint .label " "⟩
  else if e.isMarked column then rule
  else blank

/-- The stroke of the arrow to the label. -/
def arrow (e : Excerpt) (column : Nat) : Stroke :=
  if column = e.middle then ⟨paint .label "╰", paint .label "─"⟩
  else if e.middle < column then rule
  else blank

/-- The strokes below a line. -/
def drawn (e : Excerpt) (stroke : Nat → Stroke) : String :=
  String.join ((columnWidths 0 e.reach e.shownText).mapIdx fun i w => (stroke i).draw w)

def drawnChar (e : Excerpt) (column : Nat) (c : Char) : String :=
  let cell := paint (if e.isMarked column then .label else .source) (.singleton (Text.shown c))
  repeated (if Text.isWhiteSpace c then Text.widthAt column c else 1) cell

def drawnText (e : Excerpt) : String :=
  String.join (e.shownText.mapIdx (drawnChar e))

def numberWidth (e : Excerpt) : Nat :=
  (toString (e.line + 1)).length

/-- The margin of the row of the line. -/
def numberMargin (e : Excerpt) : String :=
  " " ++ paint .frame (toString (e.line + 1) ++ " │") ++ " "

def gapMargin (e : Excerpt) : String :=
  " " ++ paint .gap (spaces (numberWidth e + 1) ++ "│") ++ " "

/-- The row with the name of the source and the place. -/
def placeRow (e : Excerpt) (name : String) : String :=
  spaces (numberWidth e + 2) ++ paint .frame "╭" ++ paint .frame "─" ++ paint .frame "["
    ++ name ++ e.place ++ paint .frame "]"

/-- The rows about the line: the line with its label, or a gap when the label leaves the line. -/
def lineRows (e : Excerpt) (label : String) : List String :=
  if e.isWithinLine then
    [numberMargin e ++ drawnText e,
     gapMargin e ++ drawn e (underline e),
     gapMargin e ++ drawn e (arrow e) ++ " " ++ label]
  else [gapMargin e]

def excerptRows (e : Excerpt) (name label : String) : List String :=
  [placeRow e name, spaces (numberWidth e + 2) ++ paint .frame "│"] ++ lineRows e label
    ++ [paint .frame (repeated (numberWidth e + 2) "─" ++ "╯")]

def rows (r : Report) (source name : String) : List String :=
  (paint .label "Error:" ++ " " ++ r.message) ::
    ((excerpt? source.toList r.span).map (excerptRows · name r.label)).getD []

def render (r : Report) (source name : String) : String :=
  String.join ((r.rows source name).map (· ++ "\n"))

end Report

end TagTemplate
