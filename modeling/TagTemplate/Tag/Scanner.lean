import TagTemplate.Tag.GroupName
import TagTemplate.Tag.Registry

/-! # Finding tags in a text

A scanner finds the tags of a set under given delimiters.  It tries all opening patterns at once,
as the alternatives of one pattern in the order of the set, each in a group of its own. -/

namespace TagTemplate

/-- The patterns of one tag, and the group of its opening pattern. -/
structure TagMatcher where
  tag : TagDefinition
  group : String
  opener : Fragment
  closer : Option Fragment
deriving Repr

/-- What finds the tags of a set. -/
structure TagScanner where
  delimiters : Delimiters
  matchers : List TagMatcher
  source : String
  pattern : Pattern
deriving Repr, Inhabited

/-- A tag that opens at the position `start`; its opening text ends before `stop`. -/
structure TagMatch where
  matcher : TagMatcher
  start : Nat
  stop : Nat
deriving Repr

def TagMatch.tag (m : TagMatch) : TagDefinition :=
  m.matcher.tag

namespace TagScanner

/-- The patterns of a list of tags whose groups have the given names. -/
def matchersOf (d : Delimiters) : List (TagDefinition × String) → Except TagError (List TagMatcher)
  | [] => .ok []
  | (tag, group) :: rest => do
    let opener ← Fragment.compile tag.name tag.pattern d
    let closer ← Fragment.compileClosing tag.name tag.closing d
    let others ← matchersOf d rest
    return { tag, group, opener, closer } :: others

/-- The opening pattern of a tag as a group. -/
def groupSource (m : TagMatcher) : String :=
  "(?P<" ++ m.group ++ ">" ++ m.opener.source ++ ")"

/-- The alternatives of all tags in one pattern.  Without tags it is one that matches nothing. -/
def unifiedSource (matchers : List TagMatcher) : String :=
  if matchers.isEmpty then "[^\\s\\S]" else "|".intercalate (matchers.map groupSource)

def ofTags (tags : TagSet) (d : Delimiters) : Except TagError TagScanner := do
  if !d.isUsable then throw .emptyDelimiter
  let groups := (GroupName.chooseAll Text.fingerprint [] tags.names).map String.ofList
  let matchers ← matchersOf d (tags.definitions.zip groups)
  let source := unifiedSource matchers
  match Pattern.parse? source with
  | none => throw (.invalidPattern "<unified>")
  | some pattern => return { delimiters := d, matchers, source, pattern }

def matcher? (s : TagScanner) (tag : String) : Option TagMatcher :=
  s.matchers.find? fun m => m.tag.name = tag

def tagOfGroup? (s : TagScanner) (group : String) : Option String :=
  (s.matchers.find? fun m => m.group = group).map (·.tag.name)

def groupOfTag? (s : TagScanner) (tag : String) : Option String :=
  (s.matcher? tag).map (·.group)

def groupPlace? (m : Pattern.Match) (group : String) : Option (Nat × Nat) :=
  NameMap.find? group m.groups

/-- The first tag that opens at the position `start` or later. -/
def find? (s : TagScanner) (text : Array Char) (start : Nat) : Option TagMatch :=
  (s.pattern.find? text start).bind fun m =>
    s.matchers.findSome? fun t =>
      (groupPlace? m t.group).map fun (first, last) => ⟨t, first, last⟩

end TagScanner

end TagTemplate
