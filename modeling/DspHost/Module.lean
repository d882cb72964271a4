import DspHost.Cache.Fingerprint
import DspHost.Memory.Arena
import DspHost.Metadata.Document
import DspHost.Text.Quoted

/-!
# Compiled modules

## Main definitions

* `Kernel` — the executable entry points of a module
* `CompiledModule` — a module ready to be attached to a processor
* `CompiledModule.ofParts` — assembles one from what a compiler made
-/

namespace DspHost

/-- The entry points of a module. All state lives in the instance region, whose address they are
given; inputs and outputs are addresses of pointer tables. -/
structure Kernel where
  /-- Sets up a fresh instance: `init instance sampleRate`. -/
  init : Nat → Nat → Access Unit
  /-- Resets the signal state and leaves control values alone: `clear instance`. -/
  clear : Nat → Access Unit
  /-- Renders a number of frames: `compute instance count inputs outputs`. -/
  compute : Nat → Nat → Nat → Nat → Access Unit

/-- A module by itself, without a companion. -/
structure PlainModule where
  /-- The class name. -/
  name : String
  /-- The identity of the compilation. -/
  fingerprint : Fingerprint
  /-- The source it was compiled from. -/
  source : String
  /-- The binary. -/
  binary : List UInt8
  /-- The text of the description. -/
  description : String
  /-- The description. -/
  metadata : ModuleMetadata
  /-- The loaded binary. -/
  kernel : Kernel
  /-- Which of the modules built by its cache it is. -/
  serial : Nat

/-- A module ready to be attached to a processor. -/
structure CompiledModule extends PlainModule where
  /-- The effect that runs after the voices are mixed. -/
  effect : Option PlainModule

namespace PlainModule

/-- Assembles a module; fails if the description is not accepted. -/
def ofParts (name : String) (fingerprint : Fingerprint) (source : String) (binary : List UInt8)
    (description : String) (kernel : Kernel) (serial : Nat) : Except MetadataError PlainModule := do
  let metadata ← ModuleMetadata.parse description
  return ⟨name, fingerprint, source, binary, description, metadata, kernel, serial⟩

/-- The module without an effect. -/
def alone (m : PlainModule) : CompiledModule := ⟨m, none⟩

/-- The module in a diagnostic message, with the name of its effect. -/
def labelWith (m : PlainModule) (effect : Option String) : String :=
  "CompiledModule \x7b name: " ++ quoted m.name
    ++ ", fingerprint: Fingerprint(" ++ quoted m.fingerprint.text
    ++ s!"), inputs: {m.metadata.inputs}, outputs: {m.metadata.outputs}"
    ++ s!", instance_size: {m.metadata.size}, binary_len: {m.binary.length}, effect: "
    ++ (match effect with
      | none => "None"
      | some name => "Some(" ++ quoted name ++ ")")
    ++ " \x7d"

end PlainModule

namespace CompiledModule

/-- The module in a diagnostic message. -/
def label (m : CompiledModule) : String := m.toPlainModule.labelWith (m.effect.map (·.name))

/-- The tree of the module and of its effect. -/
def combinedUi (m : CompiledModule) : List UiItem :=
  DspHost.combinedUi m.metadata.ui (m.effect.map (·.metadata.ui))

end CompiledModule

end DspHost
