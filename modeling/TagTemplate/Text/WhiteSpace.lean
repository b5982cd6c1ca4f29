import TagTemplate.Text.CodeRange
import TagTemplate.Text.Basic

/-! # White space

The characters with the Unicode property `White_Space`, and trimming by them. -/

namespace TagTemplate.Text

/-- The ranges of the property `White_Space`. -/
def whiteSpaceRanges : List (Nat × Nat) :=
  [(0x9, 0xD), (0x20, 0x20), (0x85, 0x85), (0xA0, 0xA0), (0x1680, 0x1680), (0x2000, 0x200A),
   (0x2028, 0x2029), (0x202F, 0x202F), (0x205F, 0x205F), (0x3000, 0x3000)]

/-- The character has the property `White_Space`. -/
def isWhiteSpace (c : Char) : Bool :=
  inRanges c.toNat whiteSpaceRanges

/-- The text without white space at both ends. -/
def trim (s : List Char) : List Char :=
  strip isWhiteSpace s

/-- The text without white space at both ends. -/
def trimmed (s : String) : String :=
  .ofList (trim s.toList)

end TagTemplate.Text
