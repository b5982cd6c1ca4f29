import TagTemplate.Text.Fingerprint

/-! # Names of groups

Each tag of a scanner has a group of its own in the scanner's pattern.  The name of the group is
the name of the tag, made an identifier; where that is taken, a fingerprint of the tag's name is
added, and then a number. -/

namespace TagTemplate.GroupName

def isPart (c : Char) : Bool :=
  c.isAlphanum || c = '_'

/-- The character can begin an identifier. -/
def isStart (c : Char) : Bool :=
  c.isAlpha || c = '_'

def plain (tag : String) : List Char :=
  let base := tag.toList.map fun c => if isPart c then c else '_'
  if base.head?.any isStart then base else 't' :: '_' :: base

/-- The `n`-th name to try after the plain one. -/
def candidate (hash : String → Nat) (tag : String) (n : Nat) : List Char :=
  let hashed := plain tag ++ '_' :: Text.hexDigits 6 (hash tag)
  if n = 0 then hashed else hashed ++ '_' :: (toString n).toList

/-- The first name from the `n`-th on that is not taken, among the next `count` ones. -/
def firstFree (hash : String → Nat) (tag : String) (taken : List (List Char)) :
    Nat → Nat → List Char
  | 0, n => candidate hash tag n
  | count + 1, n =>
    if candidate hash tag n ∈ taken then firstFree hash tag taken count (n + 1)
    else candidate hash tag n

/-- The name of the group of a tag, where the names in `taken` are in use. -/
def choose (hash : String → Nat) (tag : String) (taken : List (List Char)) : List Char :=
  if plain tag ∈ taken then firstFree hash tag taken taken.length 0 else plain tag

/-- The names of the groups of a list of tags, after those in `taken`. -/
def chooseAll (hash : String → Nat) (taken : List (List Char)) : List String → List (List Char)
  | [] => []
  | tag :: rest =>
    let name := choose hash tag taken
    name :: chooseAll hash (name :: taken) rest

/-! ### Identifiers -/

theorem all_isPart_plain (tag : String) : (plain tag).all isPart = true := by
  have hbase : (tag.toList.map fun c => if isPart c then c else '_').all isPart = true := by
    simp only [List.all_map, List.all_eq_true, Function.comp]
    intro c _
    split
    · assumption
    · decide
  simp only [plain]
  split
  · exact hbase
  · simp only [List.all_cons, hbase, Bool.and_true]; decide

theorem isStart_head_plain (tag : String) : (plain tag).head?.any isStart = true := by
  simp only [plain]
  split
  · assumption
  · rfl

end TagTemplate.GroupName
