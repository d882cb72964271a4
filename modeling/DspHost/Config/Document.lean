import DspHost.Config.Basic
import DspHost.Storage
import DspHost.Toml.Reader

/-!
# Configuration files

A configuration file names the settings that differ from their defaults. Other names in it are left
alone. The settings it leaves are checked like any others.

## Main definitions

* `ConfigError` — why a file gives no configuration
* `EngineConfig.ofTable?` — the configuration that a table of settings gives
* `EngineConfig.parse`, `EngineConfig.ofFile`, `EngineConfig.load` — the configuration that a text
  or a stored file gives

## Main results

* `EngineConfig.check?_of_parse` — a configuration that was read is within its limits
-/

namespace DspHost

/-- Why a file gives no configuration. -/
inductive ConfigError where
  /-- The file could not be read. -/
  | file (name : String) (error : FileError)
  /-- The text is no settings file, or a setting in it is no number of its range. -/
  | malformed
  /-- A setting is outside its limits. -/
  | invalid (flaw : ConfigFlaw)
  deriving DecidableEq, Repr

/-- The message of a configuration error. -/
def ConfigError.message : ConfigError → String
  | file name error => s!"could not read config: {error.messageFor name}"
  | malformed => "malformed config"
  | invalid flaw => flaw.fullMessage

/-- A setting: its default where it is not named, none where it is no natural number below a
limit. -/
def setting? (settings : Toml.Members) (limit : Nat) (name : String) (default : Nat) : Option Nat :=
  match settings.lookup name with
  | none => some default
  | some (.value (.number (.integer n))) =>
    if 0 ≤ n ∧ n < limit then some n.toNat else none
  | some _ => none

namespace EngineConfig

/-- The configuration that a table of settings gives. -/
def ofTable? (settings : Toml.Members) : Option EngineConfig := ofSettings (setting? settings)

/-- The configuration that a text gives. -/
def parse (text : String) : Except ConfigError EngineConfig :=
  match (Toml.parse? text).bind ofTable? with
  | none => .error .malformed
  | some config =>
    match config.check? with
    | some flaw => .error (.invalid flaw)
    | none => .ok config

/-- The configuration in what was found under a name. -/
def ofFile (name : String) (contents : FileContents) : Except ConfigError EngineConfig :=
  match contents.text with
  | .error error => .error (.file name error)
  | .ok text => parse text

/-- The configuration that a file of a folder gives. -/
def load (folder : Folder) (name : String) : Except ConfigError EngineConfig :=
  ofFile name (folder.read name)

/-- A configuration that was read is within its limits. -/
theorem check?_of_parse {text : String} {config : EngineConfig} (h : parse text = .ok config) :
    config.check? = none := by
  unfold parse at h
  split at h
  · simp at h
  · split at h
    · simp at h
    · obtain rfl := Except.ok.inj h
      assumption

end EngineConfig

end DspHost
