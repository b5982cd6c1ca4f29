import TagTemplate.Attribute.Grammar
import TagTemplate.Document.Kind

/-! # Tag definitions

A tag definition says how a tag is found in a text, and what a node of that tag is.  Its patterns
hold the places `{open}` and `{close}` for the delimiters in use. -/

namespace TagTemplate

/-- The texts around tags. -/
structure Delimiters where
  opening : String := "\x7b"
  closing : String := "\x7d"
deriving DecidableEq, Repr, Inhabited

namespace Delimiters

/-- Neither delimiter is empty. -/
def isUsable (d : Delimiters) : Bool :=
  d.opening ≠ "" ∧ d.closing ≠ ""

end Delimiters

/-- The definition of a tag. -/
structure TagDefinition where
  name : String
  pattern : String
  kind : NodeKind
  closing : Option String := none
  lead : String := ""
  attributes : AttributeSpec := {}
  capability : Capability := kind.capability
  rawBody : Bool := false
deriving DecidableEq, Repr

namespace TagDefinition

/-- The tag opens a block that a closing tag ends. -/
def isBlock (d : TagDefinition) : Bool :=
  d.closing.isSome

end TagDefinition

/-! ### Places for delimiters -/

def openPlace : List Char :=
  ['\x7b', 'o', 'p', 'e', 'n', '\x7d']

def closePlace : List Char :=
  ['\x7b', 'c', 'l', 'o', 's', 'e', '\x7d']

/-- The template of a pattern with its places filled, those for the opening delimiter first. -/
def fillPlaces (template opening closing : String) : String :=
  .ofList (Text.replace closePlace closing.toList
    (Text.replace openPlace opening.toList template.toList))

end TagTemplate
