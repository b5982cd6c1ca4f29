import TagTemplate.Settings
import TagTemplate.Source.Files
import TagTemplate.Toml.Reader

/-! # Settings files

Settings are written as a TOML document with a group of parts for each subject.  Parts that are
not there keep their defaults, and parts that no setting has are passed over. -/

namespace TagTemplate

/-- Why settings cannot be had from a file. -/
inductive SettingsError where
  | unreadable (cause : FileError)
  | malformed
  | emptyDelimiter
deriving DecidableEq, Repr

/-- The wording of the refusal of a TOML document. -/
def Toml.refusal : String := "TOML parse error"

def SettingsError.display : SettingsError → String
  | unreadable cause => "Failed to read config file: " ++ cause.message
  | malformed => "Failed to parse config TOML: " ++ Toml.refusal
  | emptyDelimiter => "Delimiters must not be empty"

namespace Toml

/-! ### Parts of a document -/

def asText? : Toml → Option String
  | text s => some s
  | _ => none

def asBoolean? : Toml → Option Bool
  | boolean b => some b
  | _ => none

def asNatural? : Toml → Option Nat
  | integer n => if 0 ≤ n then some n.toNat else none
  | _ => none

def asTexts? : Toml → Option (List String)
  | array items => items.mapM asText?
  | _ => none

/-- The parts of a group by their names; an array gives them in the order of `names`. -/
def asGroup? (names : List String) : Toml → Option (NameMap Toml)
  | table fields => some fields
  | array items => some (.ofList (names.zip items))
  | _ => none

/-- The part with a name, read as `read` says, or its default. -/
def part? {α : Type} (group : NameMap Toml) (name : String) (read : Toml → Option α)
    (default : α) : Option α :=
  match group.get? name with
  | some v => read v
  | none => some default

/-! ### Groups -/

/-- The delimiters, both of which are to be there. -/
def asDelimiters? (v : Toml) : Option Delimiters := do
  let group ← v.asGroup? ["open", "close"]
  let opening ← (← group.get? "open").asText?
  let closing ← (← group.get? "close").asText?
  return ⟨opening, closing⟩

/-- The directories of each search root. -/
def asPaths? : Toml → Option SearchPaths
  | table fields =>
    (fields.entries.mapM fun e => (asTexts? e.2).map (e.1, ·)).map NameMap.ofList
  | _ => none

/-- The group with a name, empty when it is not there. -/
def group? (document : NameMap Toml) (name : String) (names : List String) :
    Option (NameMap Toml) :=
  part? document name (asGroup? names) ∅

/-- The settings that a document describes, whatever its delimiters. -/
def asSettings? (document : NameMap Toml) : Option Settings := do
  let s : Settings := {}
  let delimiters ← part? document "delimiters" asDelimiters? s.delimiters
  let paths ← part? document "paths" asPaths? s.paths
  let limits ← group? document "limits" ["max_loop_iterations", "max_depth"]
  let maxIterations ← part? limits "max_loop_iterations" asNatural? s.maxIterations
  let maxDepth ← part? limits "max_depth" asNatural? s.maxDepth
  let includes ← group? document "includes" ["strict"]
  let strict ← part? includes "strict" asBoolean? s.strict
  let events ← group? document "events" ["bubble"]
  let bubble ← part? events "bubble" asBoolean? s.bubble
  return { delimiters, paths, maxIterations, maxDepth, strict, bubble }

end Toml

namespace Settings

def ofText (document : String) : Except SettingsError Settings :=
  match (Toml.read? document).bind Toml.asSettings? with
  | none => .error .malformed
  | some s => if s.delimiters.isUsable then .ok s else .error .emptyDelimiter

def ofFile (files : Files) (path : String) : Except SettingsError Settings :=
  match files.read path with
  | .ok document => ofText document
  | .error cause => .error (.unreadable cause)

end Settings

/-- The scope that a document describes. -/
def Scope.ofText? (document : String) : Option Scope :=
  (Toml.read? document).map Scope.ofToml

end TagTemplate
