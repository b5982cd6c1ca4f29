import TagTemplate.CommandLine.Run

/-! # The command as a program

Looks at the files that the command needs, as long as more come up, and then writes what it
says. -/

namespace TagTemplate.CommandLine

/-- Why a file cannot be read. -/
def fileError : IO.Error → FileError
  | .noFileOrDirectory .. => .missing
  | .inappropriateType _ 20 _ => .notDirectory
  | .inappropriateType _ 21 _ => .isDirectory
  | e => .failed (toString e)

def lookAt (path : String) : IO (Except FileError String) := do
  try
    return Files.decode (← IO.FS.readBinFile path)
  catch e =>
    return .error (fileError e)

/-- All bytes of a stream. -/
def readAll (stream : IO.FS.Stream) : IO ByteArray := do
  let mut bytes := ByteArray.empty
  repeat
    let chunk ← stream.read 65536
    if chunk.isEmpty then break
    bytes := bytes ++ chunk
  return bytes

/-- Runs the command with the files that it needs. -/
def runWithFiles (arguments : List String) (input : Except FileError String) : IO Ending := do
  let mut answers : NameMap (Except FileError String) := ∅
  repeat
    let needed := filesNeeded arguments input (.ofAnswers answers)
    let unknown := needed.filter fun path => !answers.contains path
    if unknown.isEmpty then break
    for path in unknown do
      answers := answers.insert path (← lookAt path)
  return run arguments input (.ofAnswers answers)

end TagTemplate.CommandLine

open TagTemplate.CommandLine in
/-- Runs the command with the arguments of the program. -/
def main (arguments : List String) : IO UInt32 := do
  let input ← if needsInput arguments then readAll (← IO.getStdin) else pure ByteArray.empty
  let ending ← runWithFiles arguments (TagTemplate.Files.decode input)
  (← IO.getStdout).putStr ending.output
  (← IO.getStderr).putStr ending.errors
  return UInt32.ofNat ending.code
