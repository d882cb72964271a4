import DspHost.CommandLine

/-!
# The program

Reads the files that the command line names, prints what the command prints and stores what it
stores.
-/

namespace DspHost

/-- What is found under a name. -/
def findFile (name : String) : IO FileContents := do
  try
    return .ok (← IO.FS.readBinFile name).toList
  catch
    | .noFileOrDirectory .. => return .error .notFound
    | _ => return .error .isDirectory

/-- Prints a failure. -/
def fail (message : String) : IO UInt32 := do
  IO.eprintln s!"Error: {message}"
  return 1

/-- Prints and stores what a command gives. -/
def perform (outcome : Outcome) : IO UInt32 := do
  IO.print outcome.text
  match outcome.stored with
  | some (name, bytes) => IO.FS.writeBinFile name ⟨bytes.toArray⟩
  | none => pure ()
  return 0

end DspHost

open DspHost in
/-- Runs a command line. -/
def main (line : List String) : IO UInt32 := do
  if line.isEmpty then
    IO.print usageText
    return 2
  match Arguments.read line with
  | .error e => fail s!"{e.message}\n\n{usageText}"
  | .ok arguments =>
    let found ← arguments.files.mapM fun name => do return (name, ← findFile name)
    match arguments.run fun name => (found.lookup name).getD (.error .notFound) with
    | .ok outcome => perform outcome
    | .error message => fail message
