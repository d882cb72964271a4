import DspHost.Memory.Arena

/-!
# Planning an arena

Compiled code never sees host buffers. It is given addresses of pointer tables and follows one word
for every channel to the samples it reads or writes. Everything lies in one arena.

With one instance the order is: instance, input table, output table, input samples, output samples.
With voices it is: input table, output table, mixing table, input samples, output samples, mixing
samples, voices, effect. Each voice renders into the mixing samples, which are then added to the
output samples; the effect runs on these in place.

Regions start at multiples of the pointer width or of the sample width, whichever is greater, and
instances are padded to such a multiple. The arena is the smallest power of two of pages that holds
every region, and never less than two. Sizes are checked against 64 bits at every step.

## Main definitions

* `Polyphony` — one instance, or a number of voices
* `LayoutRequest`, `LayoutError` — what is asked for, and why it can be refused
* `MemoryPlan` — where everything lies
* `LayoutRequest.plan` — the planner
* `MemoryPlan.regions` — every region that is not empty
-/

namespace DspHost

/-- The smallest number of voices that is planned for. -/
def leastVoices : Nat := 4

/-- The smallest number of pages of an arena. -/
def leastPages : Nat := 2

/-- The page size when none is asked for. -/
def defaultPageSize : Nat := 65536

/-- The number of addresses of the address space. -/
def addressLimit : Nat := power 2 64

/-- How many instances of a module are hosted. -/
inductive Polyphony where
  /-- A single instance. -/
  | mono
  /-- One instance for every voice. -/
  | poly (voices : Nat)
  deriving DecidableEq, Repr

namespace Polyphony

/-- The polyphony planned for a requested number of voices; none selects a single instance. -/
def ofRequested (voices : Nat) : Polyphony :=
  if voices = 0 then mono else poly (max voices leastVoices)

/-- The number of voices, none for a single instance. -/
def voices : Polyphony → Nat
  | mono => 0
  | poly voices => voices

/-- Whether there are voices. -/
def isPoly : Polyphony → Bool
  | mono => false
  | poly _ => true

/-- The number of instances. -/
def instances : Polyphony → Nat
  | mono => 1
  | poly voices => voices

/-- The label of a polyphony. -/
def label : Polyphony → String
  | mono => "Mono"
  | poly voices => s!"Poly \x7b voices: {voices} \x7d"

end Polyphony

/-- What the planner has to know about a module and its host. -/
structure LayoutRequest where
  /-- The bytes of one instance. -/
  instanceSize : Nat
  /-- The input channels. -/
  inputs : Nat
  /-- The output channels. -/
  outputs : Nat
  /-- The requested voices; none selects a single instance. -/
  voices : Nat := 0
  /-- The samples of one block. -/
  blockLength : Nat
  /-- The width of a pointer-table word. -/
  pointerWidth : PointerWidth := .four
  /-- The width of a sample in bytes. -/
  sampleWidth : Nat := DspHost.sampleWidth
  /-- The bytes of the effect instance, if there is one; without voices it is not hosted. -/
  effectSize : Option Nat := none
  /-- The bytes of a page. -/
  pageSize : Nat := defaultPageSize
  deriving DecidableEq, Repr

/-- Why a layout is refused. -/
inductive LayoutError where
  /-- A block has no samples. -/
  | zeroBlockLength
  /-- A page has no bytes. -/
  | zeroPageSize
  /-- Samples do not have 32 bits. -/
  | unsupportedSampleWidth (width : Nat)
  /-- The arena does not fit the address space. -/
  | tooLarge
  deriving DecidableEq, Repr

/-- The message of a layout error. -/
def LayoutError.message : LayoutError → String
  | zeroBlockLength => "block length must be at least 1 sample"
  | zeroPageSize => "page size must be non-zero"
  | unsupportedSampleWidth width =>
    s!"unsupported sample width: {width} bytes (expected {sampleWidth})"
  | tooLarge => "arena layout overflows the address space"

/-- What a region of an arena is for. -/
inductive RegionKind where
  /-- The single instance. -/
  | soleInstance
  /-- Addresses of the input samples. -/
  | inputTable
  /-- Addresses of the output samples. -/
  | outputTable
  /-- Addresses of the mixing samples. -/
  | mixingTable
  /-- The input samples of all channels. -/
  | inputSamples
  /-- The output samples of all channels. -/
  | outputSamples
  /-- The mixing samples of all channels. -/
  | mixingSamples
  /-- The instance of one voice. -/
  | voice (index : Nat)
  /-- The instance of the effect. -/
  | effect
  deriving DecidableEq, Repr

/-- The label of a region kind. -/
def RegionKind.label : RegionKind → String
  | soleInstance => "Instance"
  | inputTable => "InputTable"
  | outputTable => "OutputTable"
  | mixingTable => "MixingTable"
  | inputSamples => "InputSamples"
  | outputSamples => "OutputSamples"
  | mixingSamples => "MixingSamples"
  | voice index => s!"Voice({index})"
  | effect => "Effect"

/-- A region with the addresses it begins and ends at. -/
structure PlacedRegion where
  /-- What it is for. -/
  kind : RegionKind
  /-- The first byte. -/
  start : Nat
  /-- The byte after the last. -/
  stop : Nat
  deriving DecidableEq, Repr

/-- Where the voices of a plan render to. -/
structure MixingArea where
  /-- The table of its buffers. -/
  table : PointerTable
  /-- The address of its first sample. -/
  samples : Nat
  deriving DecidableEq, Repr

/-- Where everything in an arena lies. -/
structure MemoryPlan where
  /-- How many instances are hosted. -/
  polyphony : Polyphony
  /-- The samples of one block. -/
  blockLength : Nat
  /-- The width of a pointer-table word. -/
  pointerWidth : PointerWidth
  /-- The input channels. -/
  inputs : Nat
  /-- The output channels. -/
  outputs : Nat
  /-- The table of the input buffers. -/
  inputTable : PointerTable
  /-- The table of the output buffers. -/
  outputTable : PointerTable
  /-- The address of the first input sample. -/
  inputSamples : Nat
  /-- The address of the first output sample. -/
  outputSamples : Nat
  /-- Where the voices render to, if there are any. -/
  mixing : Option MixingArea
  /-- The address of the first instance. -/
  instances : Nat
  /-- The distance from one instance to the next. -/
  stride : Nat
  /-- The bytes of one instance. -/
  instanceSize : Nat
  /-- The instance of the effect, if it is hosted. -/
  effect : Option InstanceRegion
  /-- The bytes that regions cover, padding between them included. -/
  used : Nat
  /-- The bytes of a page. -/
  pageSize : Nat
  /-- The bytes of the arena. -/
  arenaSize : Nat
  deriving DecidableEq, Repr

/-! ### The planner -/

/-- The smallest multiple of `align` that is not below `n`. -/
def alignUp (n align : Nat) : Nat := (n + (align - 1)) / align * align

/-- The smallest power of two that is not below `n`. -/
def leastPowerOfTwo (n : Nat) : Nat := if n ≤ 1 then 1 else power 2 ((n - 1).log2 + 1)

namespace LayoutRequest

/-- A size that has to fit the address space. -/
def checked (n : Nat) : Except LayoutError Nat :=
  if n < addressLimit then .ok n else .error .tooLarge

/-- Takes the next region: its first byte, and the byte after it. -/
def take (align cursor length : Nat) : Except LayoutError (Nat × Nat) := do
  let start ← checked (alignUp cursor align)
  let stop ← checked (start + length)
  return (start, stop)

/-- Every region starts at a multiple of this. -/
def alignment (r : LayoutRequest) : Nat := max r.pointerWidth.bytes r.sampleWidth

/-- The requests that are refused whatever their size. -/
def validate (r : LayoutRequest) : Except LayoutError Unit :=
  if r.blockLength = 0 then .error .zeroBlockLength
  else if r.pageSize = 0 then .error .zeroPageSize
  else if r.sampleWidth ≠ DspHost.sampleWidth then .error (.unsupportedSampleWidth r.sampleWidth)
  else .ok ()

/-- The pages that hold a number of bytes, and the bytes of these pages. -/
def arenaFor (pageSize used : Nat) : Except LayoutError Nat := do
  -- A power of two is looked for before the least number of pages is applied.
  let pages ← checked (leastPowerOfTwo ((used + (pageSize - 1)) / pageSize))
  checked (max pages leastPages * pageSize)

/-- The plan of a single instance. -/
def planMono (r : LayoutRequest) (stride channelBytes : Nat) : Except LayoutError MemoryPlan := do
  let align := r.alignment
  let word := r.pointerWidth.bytes
  -- The instance comes first, so its fields have the addresses that the module declares.
  let (single, cursor) ← take align 0 stride
  let (inputTable, cursor) ← take align cursor (← checked (r.inputs * word))
  let (outputTable, cursor) ← take align cursor (← checked (r.outputs * word))
  let (inputSamples, cursor) ← take align cursor (← checked (r.inputs * channelBytes))
  let (outputSamples, cursor) ← take align cursor (← checked (r.outputs * channelBytes))
  return {
    polyphony := .mono
    blockLength := r.blockLength
    pointerWidth := r.pointerWidth
    inputs := r.inputs
    outputs := r.outputs
    inputTable := ⟨inputTable, r.inputs, r.pointerWidth⟩
    outputTable := ⟨outputTable, r.outputs, r.pointerWidth⟩
    inputSamples, outputSamples
    mixing := none
    instances := single
    stride
    instanceSize := r.instanceSize
    effect := none
    used := cursor
    pageSize := r.pageSize
    arenaSize := ← arenaFor r.pageSize cursor }

/-- Takes the region of an effect instance, if there is one. -/
def takeEffect (align cursor : Nat) :
    Option Nat → Except LayoutError (Option InstanceRegion × Nat)
  | none => .ok (none, cursor)
  | some size => do
    let (start, cursor) ← take align cursor (← checked (alignUp size align))
    return (some ⟨start, size⟩, cursor)

/-- The plan of a number of voices and an optional effect. -/
def planPoly (r : LayoutRequest) (voices stride channelBytes : Nat) :
    Except LayoutError MemoryPlan := do
  let align := r.alignment
  let word := r.pointerWidth.bytes
  let (inputTable, cursor) ← take align 0 (← checked (r.inputs * word))
  let (outputTable, cursor) ← take align cursor (← checked (r.outputs * word))
  let (mixingTable, cursor) ← take align cursor (← checked (r.outputs * word))
  let (inputSamples, cursor) ← take align cursor (← checked (r.inputs * channelBytes))
  let (outputSamples, cursor) ← take align cursor (← checked (r.outputs * channelBytes))
  let (mixingSamples, cursor) ← take align cursor (← checked (r.outputs * channelBytes))
  -- The voices come after everything that they share.
  let (instances, cursor) ← take align cursor (← checked (stride * voices))
  let (effect, cursor) ← takeEffect align cursor r.effectSize
  return {
    polyphony := .poly voices
    blockLength := r.blockLength
    pointerWidth := r.pointerWidth
    inputs := r.inputs
    outputs := r.outputs
    inputTable := ⟨inputTable, r.inputs, r.pointerWidth⟩
    outputTable := ⟨outputTable, r.outputs, r.pointerWidth⟩
    inputSamples, outputSamples
    mixing := some ⟨⟨mixingTable, r.outputs, r.pointerWidth⟩, mixingSamples⟩
    instances, stride
    instanceSize := r.instanceSize
    effect
    used := cursor
    pageSize := r.pageSize
    arenaSize := ← arenaFor r.pageSize cursor }

/-- Plans an arena, or says why it cannot be had. -/
def plan (r : LayoutRequest) : Except LayoutError MemoryPlan := do
  r.validate
  let stride ← checked (alignUp r.instanceSize r.alignment)
  let channelBytes ← checked (r.blockLength * r.sampleWidth)
  match Polyphony.ofRequested r.voices with
  | .mono => r.planMono stride channelBytes
  | .poly voices => r.planPoly voices stride channelBytes

end LayoutRequest

/-! ### The parts of a plan -/

namespace MemoryPlan

/-- The pages of the arena. -/
def pages (p : MemoryPlan) : Nat := p.arenaSize / p.pageSize

/-- The buffer of a channel in an area of equally long buffers. -/
def buffer? (p : MemoryPlan) (base channel channels : Nat) : Option SampleBuffer :=
  if channel < channels then
    some ⟨base + channel * p.blockLength * sampleWidth, p.blockLength⟩
  else none

/-- The input buffer of a channel. -/
def inputBuffer? (p : MemoryPlan) (channel : Nat) : Option SampleBuffer :=
  p.buffer? p.inputSamples channel p.inputs

/-- The output buffer of a channel. -/
def outputBuffer? (p : MemoryPlan) (channel : Nat) : Option SampleBuffer :=
  p.buffer? p.outputSamples channel p.outputs

/-- The mixing buffer of a channel. -/
def mixingBuffer? (p : MemoryPlan) (channel : Nat) : Option SampleBuffer :=
  p.mixing.bind fun m => p.buffer? m.samples channel p.outputs

/-- The input buffers in channel order. -/
def inputBuffers (p : MemoryPlan) : List SampleBuffer :=
  (List.range p.inputs).filterMap p.inputBuffer?

/-- The output buffers in channel order. -/
def outputBuffers (p : MemoryPlan) : List SampleBuffer :=
  (List.range p.outputs).filterMap p.outputBuffer?

/-- The output buffer of every channel with the mixing buffer that is added to it. -/
def mixPairs (p : MemoryPlan) : List (SampleBuffer × SampleBuffer) :=
  (List.range p.outputs).filterMap fun channel => do
    return (← p.outputBuffer? channel, ← p.mixingBuffer? channel)

/-- The number of instances, the effect left out. -/
def instanceCount (p : MemoryPlan) : Nat := p.polyphony.instances

/-- The instance of a voice; the single instance is voice zero. -/
def voiceInstance? (p : MemoryPlan) (index : Nat) : Option InstanceRegion :=
  if index < p.instanceCount then some ⟨p.instances + index * p.stride, p.instanceSize⟩ else none

/-- The instances in voice order. -/
def voiceInstances (p : MemoryPlan) : List InstanceRegion :=
  (List.range p.instanceCount).filterMap p.voiceInstance?

/-- An area of equally long buffers as a region. -/
def samplesRegion (p : MemoryPlan) (kind : RegionKind) (base channels : Nat) : PlacedRegion :=
  ⟨kind, base, base + channels * p.blockLength * sampleWidth⟩

/-- A pointer table as a region. -/
def tableRegion (kind : RegionKind) (t : PointerTable) : PlacedRegion :=
  ⟨kind, t.offset, t.offset + t.byteLength⟩

/-- An instance as a region. -/
def instanceRegion (kind : RegionKind) (r : InstanceRegion) : PlacedRegion :=
  ⟨kind, r.offset, r.offset + r.size⟩

/-- Every region of the plan, empty ones included. -/
def allRegions (p : MemoryPlan) : List PlacedRegion :=
  [tableRegion .inputTable p.inputTable,
    tableRegion .outputTable p.outputTable,
    p.samplesRegion .inputSamples p.inputSamples p.inputs,
    p.samplesRegion .outputSamples p.outputSamples p.outputs]
  ++ (match p.mixing with
    | none => []
    | some m =>
      [tableRegion .mixingTable m.table, p.samplesRegion .mixingSamples m.samples p.outputs])
  ++ (match p.polyphony with
    | .mono => [instanceRegion .soleInstance ⟨p.instances, p.instanceSize⟩]
    | .poly voices =>
      (List.range voices).map fun v =>
        instanceRegion (.voice v) ⟨p.instances + v * p.stride, p.instanceSize⟩)
  ++ (p.effect.map (instanceRegion .effect)).toList

/-- Every region of the plan that is not empty. -/
def regions (p : MemoryPlan) : List PlacedRegion :=
  p.allRegions.filter fun r => r.start < r.stop

/-- The zeroed arena of a plan. -/
def arena (p : MemoryPlan) : Arena := .zeroed p.arenaSize p.pointerWidth

end MemoryPlan

end DspHost
