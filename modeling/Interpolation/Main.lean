import Interpolation.CommandLine.Session

/-!
# Interpolation.Main

The **program**: reads the files that the command line names, lets a session answer,
and prints the answer.
-/

namespace Interpolation

open CommandLine

/-- The wording and the number of a failure, as the system gives them. -/
def readError : IO.Error → ReadError
  | .alreadyExists _ code details | .otherError code details | .resourceBusy code details
  | .resourceVanished code details | .unsupportedOperation code details
  | .hardwareFault code details | .unsatisfiedConstraints code details
  | .illegalOperation code details | .protocolError code details
  | .timeExpired code details | .interrupted _ code details
  | .noFileOrDirectory _ code details | .invalidArgument _ code details
  | .permissionDenied _ code details | .resourceExhausted _ code details
  | .inappropriateType _ code details | .noSuchThing _ code details =>
    .system details.toList code.toNat
  | e => .system e.toString.toList 0

/-- What `read` gives up to the end of what can be read, or why it cannot be had. -/
def readAll (read : USize → IO ByteArray) : IO (Except ReadError (List UInt8)) := do
  let mut bytes := ByteArray.empty
  try
    repeat
      let chunk ← read 4096
      if chunk.isEmpty then break
      bytes := bytes ++ chunk
    return .ok bytes.toList
  catch e => return .error (readError e)

/-- The bytes of a file, or why they cannot be had. -/
def readFile (name : Text) : IO (Except ReadError (List UInt8)) := do
  try
    let file ← IO.FS.Handle.mk (String.ofList name) .read
    readAll file.read
  catch e => return .error (readError e)

/-- The folder in which the program works; none if it cannot be told. -/
def workingFolder : IO (Option FilePath) := do
  try
    return some (.ofText (← IO.currentDir).toString.toList)
  catch _ => return none

/-- What a session with these arguments is given: the files that it may ask for are
read beforehand. -/
def surroundings (arguments : List Text) : IO Surroundings := do
  let options := (Options.parse arguments).toOption
  let names := match options with
    | some o => o.config.toList ++ o.input.toList
    | none => []
  let files ← names.mapM fun name => return (name, ← readFile name)
  let waiting := match options with
    | some o => o.input.isNone
    | none => false
  let stdin ← IO.getStdin
  let input ← if ← stdin.isTty then pure none
    else if waiting then some <$> readAll stdin.read
    else pure (some (.ok []))
  return ⟨arguments, ← workingFolder, input,
    fun name => (files.lookup name).getD (.error .notFound)⟩

end Interpolation

/-- The program. -/
def main (arguments : List String) : IO UInt32 := do
  let outcome :=
    Interpolation.CommandLine.run (← Interpolation.surroundings (arguments.map String.toList))
  (← IO.getStderr).putStr (String.ofList outcome.errors)
  (← IO.getStdout).putStr (String.ofList outcome.output)
  return outcome.exit.toUInt32
