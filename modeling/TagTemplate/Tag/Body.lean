import TagTemplate.Tag.Registry

/-! # Bodies of tags

The body of a tag is what remains of its text without the delimiters, the lead and one pair of
parentheses around the rest. -/

namespace TagTemplate

/-- The text without the delimiters at its ends, if it has both. -/
def withoutDelimiters (d : Delimiters) (s : List Char) : List Char :=
  ((Text.dropPrefix? d.opening.toList s).bind (Text.dropSuffix? d.closing.toList)).getD s

/-- The text without the parentheses at its ends, if it has both. -/
def withoutParentheses (s : List Char) : List Char :=
  match (Text.dropPrefix? ['('] s).bind (Text.dropSuffix? [')']) with
  | some inner => Text.trim inner
  | none => s

namespace TagDefinition

/-- The body of a tag in the text that its opening pattern matched. -/
def body (t : TagDefinition) (d : Delimiters) (matched : List Char) : List Char :=
  let inner := withoutDelimiters d matched
  withoutParentheses (Text.trim ((Text.dropPrefix? t.lead.toList inner).getD inner))

end TagDefinition

/-- The attributes of a tag, from the text that its opening pattern matched. -/
def TagSet.attributes (s : TagSet) (tag matched : String) (d : Delimiters) :
    Except TagError Attributes :=
  match s.get? tag with
  | none => .error (.notFound tag)
  | some t =>
    (Attributes.ofBody t.attributes (.ofList (t.body d matched.toList))).mapError
      (.attributes tag)

end TagTemplate
