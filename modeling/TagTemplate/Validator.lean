import TagTemplate.Decimal.Reader
import TagTemplate.NameMap
import TagTemplate.Text.Letters
import TagTemplate.Text.WhiteSpace

/-! # Validators

A validator accepts or rejects a text.  All those known from the start look at the text without
white space at its ends. -/

namespace TagTemplate

abbrev Validator := String → Bool

namespace Validator

/-- There is something apart from white space. -/
def nonEmpty : Validator := fun s =>
  Text.trimmed s ≠ ""

/-- The text is a number with a digit in it. -/
def numeric : Validator := fun s =>
  let s := Text.trimmed s
  s.toList.any Decimal.isDigit && (Decimal.read? s).isSome

/-- The text has letters only, at least one. -/
def alphabetic : Validator := fun s =>
  let s := Text.trim s.toList
  s ≠ [] && s.all Text.isAlphabetic

/-- The text has letters and numerals only, at least one. -/
def alphanumeric : Validator := fun s =>
  let s := Text.trim s.toList
  s ≠ [] && s.all fun c => Text.isAlphabetic c || Text.isNumeric c

/-- The character can stand on either side of the at sign of an address. -/
def isAddressPart (c : Char) : Bool :=
  c ≠ '@' && !Text.isWhiteSpace c

/-- Some character of a domain other than the first and the last one is a point. -/
def hasInnerPoint (domain : List Char) : Bool :=
  (domain.drop 1).dropLast.contains '.'

/-- The text is `local@domain`, the domain with a point inside. -/
def email : Validator := fun s =>
  match Text.cut ['@'] (Text.trim s.toList) with
  | some (user, domain) =>
    user ≠ [] && user.all isAddressPart && domain.all isAddressPart && hasInnerPoint domain
  | none => false

def builtins : NameMap Validator := .ofList [
  ("non_empty", nonEmpty),
  ("numeric", numeric),
  ("alphabetic", alphabetic),
  ("alphanumeric", alphanumeric),
  ("email", email)]

end Validator

end TagTemplate
