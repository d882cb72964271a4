import DspHost.Control.EventLog
import DspHost.Memory.Plan

/-!
# Engine configuration

## Main definitions

* `EngineConfig` — the settings of a processor, with their defaults
* `EngineConfig.ofSettings`, `EngineConfig.settings` — the settings by name
* `ConfigFlaw`, `ConfigFlaw.fullMessage` — a setting outside its limits
* `EngineConfig.check?`, `EngineConfig.validate` — the limits

## Main results

* `EngineConfig.ofSettings_lookup` — a configuration is made of its settings
* `EngineConfig.check?_eq_none_iff` — the settings that are accepted
-/

namespace DspHost

/-- The largest number of samples of a block. -/
def largestBlock : Nat := 2048

/-- The settings of a processor. -/
structure EngineConfig where
  /-- Frames per second. -/
  sampleRate : Nat := 48000
  /-- Frames of a block. -/
  blockLength : Nat := 128
  /-- The requested voices; none hosts a single instance. -/
  voices : Nat := 0
  /-- Meters are read back every this many rendered blocks. -/
  bargraphInterval : Nat := 5
  /-- The bytes of a page. -/
  pageSize : Nat := defaultPageSize
  /-- The bytes of a pointer-table word. -/
  pointerWidth : Nat := 4
  /-- How many commands can be pending. -/
  queueCapacity : Nat := 1024
  /-- How many readbacks can be pending. -/
  readbackCapacity : Nat := 256
  /-- How many events the log retains. -/
  eventLogCapacity : Nat := defaultLogCapacity
  deriving DecidableEq, Repr, Inhabited

namespace EngineConfig

/-- The configuration whose settings come from `setting`, which is told the number of values of the
setting's word, its name and its default. The sample rate and the readback interval are half words,
the other settings whole words. -/
def ofSettings [Monad m] (setting : Nat → String → Nat → m Nat) : m EngineConfig := do
  let half := setting (power 2 32)
  let whole := setting addressLimit
  let default : EngineConfig := {}
  return {
    sampleRate := ← half "sample_rate" default.sampleRate
    blockLength := ← whole "block_len" default.blockLength
    voices := ← whole "voices" default.voices
    bargraphInterval := ← half "bargraph_interval" default.bargraphInterval
    pageSize := ← whole "page_size" default.pageSize
    pointerWidth := ← whole "pointer_width" default.pointerWidth
    queueCapacity := ← whole "queue_capacity" default.queueCapacity
    readbackCapacity := ← whole "readback_capacity" default.readbackCapacity
    eventLogCapacity := ← whole "event_log_capacity" default.eventLogCapacity }

/-- The settings by name. -/
def settings (c : EngineConfig) : List (String × Nat) :=
  [("sample_rate", c.sampleRate), ("block_len", c.blockLength), ("voices", c.voices),
    ("bargraph_interval", c.bargraphInterval), ("page_size", c.pageSize),
    ("pointer_width", c.pointerWidth), ("queue_capacity", c.queueCapacity),
    ("readback_capacity", c.readbackCapacity), ("event_log_capacity", c.eventLogCapacity)]

/-- A configuration is made of its settings. -/
theorem ofSettings_lookup (c : EngineConfig) :
    ofSettings (fun _ name _ => c.settings.lookup name) = some c := by
  rfl

end EngineConfig

/-- A setting outside its limits. -/
inductive ConfigFlaw where
  /-- There is no sample rate. -/
  | zeroSampleRate
  /-- A block is empty or too long. -/
  | blockLength (length : Nat)
  /-- Meters are never read back. -/
  | zeroBargraphInterval
  /-- A page has no bytes. -/
  | zeroPageSize
  /-- One of the queues holds nothing. -/
  | zeroQueueCapacity
  /-- There are no pointers of this width. -/
  | pointerWidth (bytes : Nat)
  deriving DecidableEq, Repr

/-- What is wrong with a setting. -/
def ConfigFlaw.message : ConfigFlaw → String
  | zeroSampleRate => "sample_rate must be positive"
  | blockLength length => s!"block_len must be in 1..={largestBlock}, got {length}"
  | zeroBargraphInterval => "bargraph_interval must be at least 1"
  | zeroPageSize => "page_size must be positive"
  | zeroQueueCapacity => "queue capacities must be positive"
  | pointerWidth bytes => s!"pointer_width must be 4 or 8, got {bytes}"

/-- The message of a refused configuration. -/
def ConfigFlaw.fullMessage (flaw : ConfigFlaw) : String := s!"invalid config: {flaw.message}"

namespace EngineConfig

/-- The pointer width asked for. -/
def width (c : EngineConfig) : Except ConfigFlaw PointerWidth :=
  match PointerWidth.ofBytes? c.pointerWidth with
  | some width => .ok width
  | none => .error (.pointerWidth c.pointerWidth)

/-- The first setting outside its limits. -/
def check? (c : EngineConfig) : Option ConfigFlaw :=
  if c.sampleRate = 0 then some .zeroSampleRate
  else if c.blockLength = 0 ∨ largestBlock < c.blockLength then some (.blockLength c.blockLength)
  else if c.bargraphInterval = 0 then some .zeroBargraphInterval
  else if c.pageSize = 0 then some .zeroPageSize
  else if c.queueCapacity = 0 ∨ c.readbackCapacity = 0 then some .zeroQueueCapacity
  else
    match c.width with
    | .error flaw => some flaw
    | .ok _ => none

/-- Accepts a configuration whose settings are within their limits. -/
def validate (c : EngineConfig) : Except ConfigFlaw Unit :=
  match c.check? with
  | some flaw => .error flaw
  | none => .ok ()

/-- A configuration is accepted exactly if every setting is within its limits. -/
theorem check?_eq_none_iff (c : EngineConfig) :
    c.check? = none ↔
      0 < c.sampleRate ∧ (0 < c.blockLength ∧ c.blockLength ≤ largestBlock) ∧
        0 < c.bargraphInterval ∧ 0 < c.pageSize ∧
          (0 < c.queueCapacity ∧ 0 < c.readbackCapacity) ∧
            (c.pointerWidth = 4 ∨ c.pointerWidth = 8) := by
  have width_iff : (∃ w, c.width = .ok w) ↔ c.pointerWidth = 4 ∨ c.pointerWidth = 8 := by
    unfold width PointerWidth.ofBytes?
    split <;> rename_i heq <;> split at heq <;> simp_all
  rw [← width_iff]
  unfold check?
  cases hwidth : c.width with
  | error flaw => grind
  | ok w => grind

end EngineConfig

end DspHost
