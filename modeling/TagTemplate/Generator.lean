import TagTemplate.Document.Node
import TagTemplate.Function

/-! # Generators

A generator makes up a text that stands in for a variable without a value. -/

namespace TagTemplate

/-- Makes up a text for a node. -/
abbrev Generator := Node → String

namespace Generator

def fillerWords : List String :=
  ["lorem", "ipsum", "dolor", "sit", "amet", "consectetur", "adipiscing", "elit", "sed", "do",
    "eiusmod", "tempor", "incididunt", "ut", "labore", "et", "dolore", "magna", "aliqua"]

/-- The first `count` words of filler text, which begins again at its end. -/
def filler (count : Nat) : List String :=
  (List.range count).map fun i => (fillerWords[i % fillerWords.length]?).getD ""

/-- Number of words asked for by a text, eight if it is no number. -/
def wordCount (text : Option String) : Nat :=
  min ((text.bind (Decimal.readNatural? Decimal.maxCount)).getD 8) Function.maxItems

/-- Filler text of as many words as the attribute `words` says. -/
def lorem : Generator := fun n =>
  " ".intercalate (filler (wordCount (n.attributes.text? "words")))

/-- The name of the variable, or else the tag, in brackets. -/
def placeholder : Generator := fun n =>
  "[" ++ n.attributes.name.getD n.tag ++ "]"

def builtins : NameMap Generator := .ofList [
  ("lorem", lorem),
  ("placeholder", placeholder)]

end Generator

end TagTemplate
