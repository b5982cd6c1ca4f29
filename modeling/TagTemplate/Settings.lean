import TagTemplate.Document.Node
import TagTemplate.Source.Loader

/-! # Settings

The delimiters, the search roots and the limits of a rendering. -/

namespace TagTemplate

/-- How templates are rendered. -/
structure Settings where
  delimiters : Delimiters := {}
  paths : SearchPaths := ∅
  maxIterations : Nat := 1000
  maxDepth : Nat := 32
  strict : Bool := false
  bubble : Bool := true
deriving DecidableEq, Inhabited

namespace Settings

/-- The settings with one more directory at the end of a search root. -/
def addDirectory (s : Settings) (root directory : String) : Settings :=
  { s with paths := s.paths.insert root (s.paths.directories root ++ [directory]) }

/-- The settings with more directories at the end of a search root. -/
def addDirectories (s : Settings) (root : String) (directories : List String) : Settings :=
  directories.foldl (fun s d => s.addDirectory root d) s

end Settings

end TagTemplate
