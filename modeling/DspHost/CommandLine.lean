import DspHost.Cache.Store
import DspHost.Config.Document
import DspHost.Inspection
import DspHost.Programs.Organ

/-!
# The command line

Three commands: one prints what a module would be given if it were hosted, one does the same for a
bundle, and one stores the demonstration organ as a bundle. Files are handed in as values; what is
to be printed and stored is handed back.

## Main definitions

* `Arguments`, `Arguments.read` — the options and words of a command line
* `Arguments.files` — the files that a command line needs
* `Outcome`, `Arguments.run` — what a command prints and stores
-/

namespace DspHost

/-- What is wrong with a command line. -/
inductive UsageError where
  /-- There is no such option. -/
  | unknownOption (option : String)
  /-- An option has no value. -/
  | missingValue (option : String)
  /-- The value of an option is no number. -/
  | invalidNumber (option value : String)
  /-- The words are no command. -/
  | unknownCommand (words : List String)
  deriving DecidableEq, Repr

/-- How a command line looks. -/
def usageText : String := textOfLines [
  "Usage: dsphost [OPTIONS] COMMAND",
  "",
  "Commands:",
  "  inspect FILE         print the arena plan and parameter table of a metadata file",
  "  bundle FILE          summarize an exported artifact bundle",
  "  play --export FILE   write the demo organ as a bundle",
  "",
  "Options:",
  "  -c, --config FILE    engine configuration file (TOML)",
  "  -v, --voices N       requested voices, 0 for monophonic",
  "  -b, --block-len N    frames per block"]

/-- The message of a usage error. -/
def UsageError.message : UsageError → String
  | unknownOption option => s!"unexpected argument {option}"
  | missingValue option => s!"a value is required for {option}"
  | invalidNumber option value => s!"invalid value {value} for {option}"
  | unknownCommand [] => "a command is required"
  | unknownCommand words => "unrecognized command " ++ " ".intercalate words

/-- The options and words of a command line. -/
structure Arguments where
  /-- The name of the configuration file. -/
  config : Option String := none
  /-- The voices that replace the configured ones. -/
  voices : Option Nat := none
  /-- The block length that replaces the configured one. -/
  blockLength : Option Nat := none
  /-- The name of the file that the organ is stored in. -/
  exported : Option String := none
  /-- The words that are no options. -/
  words : List String := []
  deriving DecidableEq, Repr

namespace Arguments

/-- The value of an option as a number. -/
def number (option value : String) : Except UsageError Nat :=
  match naturalOfText? addressLimit value.toList with
  | some n => .ok n
  | none => .error (.invalidNumber option value)

/-- The arguments with the value of an option. -/
def set (a : Arguments) (option value : String) : Except UsageError Arguments :=
  if option = "-c" ∨ option = "--config" then .ok { a with config := some value }
  else if option = "-v" ∨ option = "--voices" then do
    return { a with voices := some (← number option value) }
  else if option = "-b" ∨ option = "--block-len" then do
    return { a with blockLength := some (← number option value) }
  else if option = "--export" then .ok { a with exported := some value }
  else .error (.unknownOption option)

/-- Reads what follows the given arguments. -/
def readOn (a : Arguments) : List String → Except UsageError Arguments
  | [] => .ok a
  | word :: rest =>
    if word.startsWith "-" then
      match rest with
      | [] => .error (.missingValue word)
      | value :: rest => do (← a.set word value).readOn rest
    else readOn { a with words := a.words ++ [word] } rest

/-- Reads a command line. -/
def read (line : List String) : Except UsageError Arguments := readOn {} line

/-- The files that a command line needs. -/
def files (a : Arguments) : List String := a.config.toList ++ a.words.drop 1

/-- The configuration: that of the file, if one is named, with the settings of the command line. -/
def configuration (a : Arguments) (file : String → FileContents) :
    Except ConfigError EngineConfig := do
  let stored ← match a.config with
    | some name => EngineConfig.ofFile name (file name)
    | none => .ok {}
  let config := { stored with
    voices := a.voices.getD stored.voices
    blockLength := a.blockLength.getD stored.blockLength }
  config.validate.mapError .invalid
  return config

end Arguments

/-- What a command prints and stores. -/
structure Outcome where
  /-- The text to print. -/
  text : String
  /-- The file to store, if there is one. -/
  stored : Option (String × List UInt8) := none

/-- The lines about a bundle. -/
def Bundle.summary (b : Bundle) : List String :=
  let a := b.artifact
  [s!"=== {a.name} ===", s!"Fingerprint: {a.fingerprint.text}", s!"Binary: {a.binary.length} bytes",
    s!"Source: {a.source.utf8ByteSize} bytes",
    match b.effect? with
    | some effect =>
      s!"Effect: {effect.artifact.fingerprint.text} ({effect.artifact.binary.length} bytes)"
    | none => "Effect: none",
    ""]

/-- Prints what a module would be given. -/
def inspectFile (name : String) (contents : FileContents) (config : EngineConfig) :
    Except String Outcome := do
  let text ← contents.text.mapError fun e => s!"failed to read {e.messageFor name}"
  let metadata ← (ModuleMetadata.parse text).mapError (·.message)
  let inspection ← (Inspection.ofModule metadata none config).mapError (·.message)
  return { text := inspection.text }

/-- Prints what is in a bundle and what its module would be given. -/
def inspectBundle (name : String) (contents : FileContents) (config : EngineConfig) :
    Except String Outcome := do
  let bundle ← (Bundle.ofFile name contents).mapError (·.message)
  let metadata ← (ModuleMetadata.parse bundle.artifact.description).mapError (·.message)
  let effect ← match bundle.effect? with
    | some effect =>
      ((ModuleMetadata.parse effect.artifact.description).map some).mapError (·.message)
    | none => .ok none
  let inspection ← (Inspection.ofModule metadata effect config).mapError (·.message)
  return { text := textOfLines bundle.summary ++ inspection.text }

/-- Stores the demonstration organ as a bundle. -/
def exportOrgan (name : String) : Except String Outcome := do
  let request : CompileRequest := ⟨"organ", organSource, [], .external⟩
  let (outcome, cache) := (ModuleCache.empty.getOrCompile organToolchain request).value
  let organ ← outcome.mapError (·.message)
  match cache.exportBundle? organ.fingerprint with
  | some bundle =>
    return { text := s!"Wrote {organ.name} to {name}\n", stored := some (name, bundle.stored) }
  | none => .error "the organ is not in the cache"

/-- What a command prints and stores, or the message of its failure. -/
def Arguments.run (a : Arguments) (file : String → FileContents) : Except String Outcome := do
  let config ← (a.configuration file).mapError (·.message)
  match a.words, a.exported with
  | ["inspect", name], _ => inspectFile name (file name) config
  | ["bundle", name], _ => inspectBundle name (file name) config
  | ["play"], some name => exportOrgan name
  | ["play"], none => .error "there is no sound output; use --export"
  | words, _ => .error (UsageError.unknownCommand words).message

end DspHost
