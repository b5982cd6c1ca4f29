import TagTemplate.NameMap
import TagTemplate.Text.Basic

/-! # Files

A tree of files as a program sees it from its working directory.  `FileTree.find` follows a path
with its steps `.` and `..`; the directories outside the tree have nothing in them. -/

namespace TagTemplate

/-- Why a file cannot be read. -/
inductive FileError where
  | missing
  | notDirectory
  | isDirectory
  | invalidName
  | notText
  | failed (message : String)
deriving DecidableEq, Repr

namespace FileError

def message : FileError → String
  | missing => "No such file or directory (os error 2)"
  | notDirectory => "Not a directory (os error 20)"
  | isDirectory => "Is a directory (os error 21)"
  | invalidName => "file name contained an unexpected NUL byte"
  | notText => "stream did not contain valid UTF-8"
  | failed message => message

end FileError

/-- What can be asked about files: whether there is one at a path, and its text. -/
structure Files where
  isFile : String → Bool
  read : String → Except FileError String

namespace Files

def none : Files where
  isFile _ := false
  read _ := .error .missing

/-- The text that bytes encode. -/
def decode (bytes : ByteArray) : Except FileError String :=
  match String.fromUTF8? bytes with
  | some s => .ok s
  | Option.none => .error .notText

/-- The files of which the answer to reading each is known; no others are there. -/
def ofAnswers (answers : NameMap (Except FileError String)) : Files where
  isFile path := match answers.get? path with
    | some (.ok _) | some (.error .notText) | some (.error (.failed _)) => true
    | _ => false
  read path := (answers.get? path).getD (.error .missing)

end Files

/-! ### Trees -/

/-- A file with its bytes, or a directory with its entries. -/
inductive FileTree where
  | file (bytes : ByteArray)
  | directory (entries : NameMap FileTree)
deriving Inhabited

namespace FileTree

/-- A directory without entries. -/
def empty : FileTree :=
  directory ∅

/-- The steps of a path, with an empty step for each slash that ends one or follows another. -/
def steps (path : String) : List String :=
  (Text.pieces ['/'] path.toList).map String.ofList

/-- The tree with another one put at the end of a list of steps. -/
def put (new : FileTree) : List String → FileTree → FileTree
  | [], _ => new
  | step :: rest, t =>
    let entries := match t with
      | directory entries => entries
      | file _ => ∅
    directory (entries.insert step (put new rest ((entries.get? step).getD empty)))

/-- The tree at the end of a list of steps; `above` holds the directories around, the nearest
first. -/
def walk (above : List FileTree) (t : FileTree) : List String → Except FileError FileTree
  | [] => .ok t
  | step :: rest =>
    match t with
    | file _ => .error .notDirectory
    | directory entries =>
      if step = "" ∨ step = "." then walk above t rest
      else if step = ".." then
        match above with
        | [] => walk [] empty rest
        | outer :: above => walk above outer rest
      else
        match entries.get? step with
        | some inner => walk (t :: above) inner rest
        | none => .error .missing

/-- The tree at a path.  An absolute path begins outside the tree. -/
def find (t : FileTree) (path : String) : Except FileError FileTree :=
  if path = "" then .error .missing
  else if path.toList.contains '\x00' then .error .invalidName
  else walk [] (if path.toList.head? = some '/' then empty else t) (steps path)

def read (t : FileTree) (path : String) : Except FileError String :=
  match t.find path with
  | .ok (file bytes) => Files.decode bytes
  | .ok (directory _) => .error .isDirectory
  | .error e => .error e

def files (t : FileTree) : Files where
  isFile path := match t.find path with
    | .ok (file _) => true
    | _ => false
  read := t.read

end FileTree

end TagTemplate
