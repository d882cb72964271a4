import DspHost.Cache.Toolchain
import DspHost.Json.Decode
import DspHost.Json.Reader
import DspHost.Programs.Frames
import DspHost.Storage
import DspHost.Text.Hex
import DspHost.Text.Search

/-!
# Scripted programs

A scripted program is a list of steps for each entry point. The steps run in their order, and the
first fault ends them. Addresses inside the instance are given as offsets, and channels by number.
Reading a script is lenient: steps that are not known are left out, and arguments of the wrong form
count as zero.

## Main definitions

* `ScriptStep`, `ScriptStep.run` — a step, and what it does
* `Script`, `Script.kernel` — a program, and its entry points
* `Script.ofJson?` — a program from a document
* `ScriptProgram`, `scriptToolchain` — a compiler with a fixed list of outcomes, and a loader of
  scripts
-/

namespace DspHost

/-- A step of a scripted program. -/
inductive ScriptStep where
  /-- Stores a value in the instance. -/
  | set (offset : Nat) (value : Single)
  /-- Stores a value anywhere. -/
  | poke (address : Nat) (value : Single)
  /-- Stores the sample rate. -/
  | sampleRate (offset : Nat)
  /-- Stores the size of the arena. -/
  | arenaSize (offset : Nat)
  /-- Adds one to a word. -/
  | increment (offset : Nat)
  /-- Adds a value to a value. -/
  | add (offset : Nat) (value : Single)
  /-- Stores a value anywhere, or at the end of the arena, if a word has a given value. -/
  | trap (offset word : Nat) (address : Option Nat)
  /-- Copies values of the instance to the first frames of an output. -/
  | dump (channel offset count : Nat)
  /-- Fills an output. -/
  | fill (channel : Nat) (value : Single)
  /-- Writes an input times a value of the instance to an output. -/
  | gain (input output offset : Nat)
  deriving DecidableEq, Repr

/-- What an entry point is given. -/
structure ScriptCall where
  /-- The address of the instance. -/
  instanceAddress : Nat
  /-- The sample rate, zero if the entry point is not given one. -/
  sampleRate : Nat := 0
  /-- The number of frames. -/
  count : Nat := 0
  /-- The address of the table of the inputs. -/
  inputs : Nat := 0
  /-- The address of the table of the outputs. -/
  outputs : Nat := 0
  deriving DecidableEq, Repr

namespace ScriptStep

/-- What a step does. -/
def run (call : ScriptCall) : ScriptStep → Access Unit
  | set offset value => Access.storeSingle (call.instanceAddress + offset) value
  | poke address value => Access.storeSingle address value
  | sampleRate offset => Access.storeSingle (call.instanceAddress + offset) (.ofNat call.sampleRate)
  | arenaSize offset => do
    Access.store32 (call.instanceAddress + offset) (← Access.arenaSize).toUInt32
  | increment offset => do
    let word ← Access.load32 (call.instanceAddress + offset)
    Access.store32 (call.instanceAddress + offset) (word + 1)
  | add offset value => do
    let last ← Access.loadSingle (call.instanceAddress + offset)
    Access.storeSingle (call.instanceAddress + offset) (last + value)
  -- Without an address the store goes just past the end.
  | trap offset word address => do
    if (← Access.load32 (call.instanceAddress + offset)).toNat = word then
      Access.storeSingle (address.getD (← Access.arenaSize)) .one
  | dump channel offset count => do
    let target ← Access.channel call.outputs channel
    forFrames (min count call.count) fun i => do
      let value ← Access.loadSingle (frameAddress (call.instanceAddress + offset) i)
      Access.storeSingle (frameAddress target i) value
  | fill channel value => do
    let target ← Access.channel call.outputs channel
    fillFrames call.count target value
  | gain input output offset => do
    let factor ← Access.loadSingle (call.instanceAddress + offset)
    let source ← Access.channel call.inputs input
    let target ← Access.channel call.outputs output
    scaleFrames call.count source target factor

end ScriptStep

/-- A scripted program. -/
structure Script where
  /-- Sets up an instance. -/
  init : List ScriptStep
  /-- Clears the signal state. -/
  clear : List ScriptStep
  /-- Renders a block. -/
  compute : List ScriptStep
  deriving DecidableEq, Repr

/-- The entry points of a scripted program. -/
def Script.kernel (script : Script) : Kernel where
  init instanceAddress sampleRate :=
    Access.forEach (ScriptStep.run ⟨instanceAddress, sampleRate, 0, 0, 0⟩) script.init
  clear instanceAddress :=
    Access.forEach (ScriptStep.run ⟨instanceAddress, 0, 0, 0, 0⟩) script.clear
  compute instanceAddress count inputs outputs :=
    Access.forEach (ScriptStep.run ⟨instanceAddress, 0, count, inputs, outputs⟩) script.compute

/-! ### Documents -/

/-- A value in a script: a number, rounded from double precision, or its eight hexadecimal digits.
Anything else counts as zero. -/
def scriptSingle : Json → Single
  | .number literal =>
    let pattern := literal.decimal.nearest .double
    if pattern = Format.double.infinity then
      if literal.negative then -Single.infinity else Single.infinity
    else .ofScaled literal.negative (Format.double.decode pattern)
  | .string (some text) =>
    match text.toList.foldlM (fun n c => (hexValue? c).map (16 * n + ·)) 0 with
    | some n => ⟨n.toUInt32⟩
    | none => .zero
  | _ => .zero

/-- A number in a script, if it is one. -/
def scriptNat? (document : Json) : Option Nat := document.wholeBelow? wordLimit

/-- A number in a script. Anything else counts as zero. -/
def scriptNat (document : Json) : Nat := (scriptNat? document).getD 0

namespace ScriptStep

/-- The step with a name and arguments. Missing arguments count as `null`, and more arguments than
the step has are not looked at. -/
def ofArguments? (name : String) (arguments : List Json) : Option ScriptStep :=
  let argument := fun i => arguments.getD i .null
  let first := scriptNat (argument 0)
  let second := scriptNat (argument 1)
  match name with
  | "set" => some (set first (scriptSingle (argument 1)))
  | "poke" => some (poke first (scriptSingle (argument 1)))
  | "sr" => some (sampleRate first)
  | "len" => some (arenaSize first)
  | "inc" => some (increment first)
  | "acc" => some (add first (scriptSingle (argument 1)))
  | "trap" => some (trap first second (scriptNat? (argument 2)))
  | "dump" => some (dump first second (scriptNat (argument 2)))
  | "fill" => some (fill first (scriptSingle (argument 1)))
  | "gain" => some (gain first second (scriptNat (argument 2)))
  | _ => none

/-- The step that a document holds, if it is a known one. -/
def ofJson? : Json → Option ScriptStep
  | .array (.string (some name) :: arguments) => ofArguments? name arguments
  | _ => none

/-- The known steps that a document lists. -/
def listOfJson : Json → List ScriptStep
  | .array steps => steps.filterMap ofJson?
  | _ => []

end ScriptStep

namespace Script

/-- The steps of an entry point, where the last member with its name counts; none if they are left
out. -/
def steps (name : String) (members : List (Option String × Json)) : List ScriptStep :=
  match (members.filter fun m => m.1 == some name).getLast? with
  | none => []
  | some (_, document) => ScriptStep.listOfJson document

/-- The program that a document holds. Every object is one. -/
def ofJson? : Json → Option Script
  | .object members => some ⟨steps "init" members, steps "clear" members, steps "compute" members⟩
  | _ => none

end Script

/-! ### The toolchain -/

/-- One outcome of the compiler of scripted programs. -/
structure ScriptProgram where
  /-- The class name it is for; every name if none is given. -/
  name : Option String
  /-- The text that a source has to contain. -/
  has : String
  /-- The outcome. -/
  outcome : Except String CompilerOutput

/-- Whether a program is the outcome for a name and a source. -/
def ScriptProgram.answers (p : ScriptProgram) (name source : String) : Bool :=
  p.name.all (· == name) && containsText p.has.toList source.toList

/-- Compiles by the first program of a list that is for the name and the source. -/
def compileScript (programs : List ScriptProgram) (name source : String) :
    Except String CompilerOutput :=
  match programs.find? (·.answers name source) with
  | some p => p.outcome
  | none => .error s!"no program for {name}"

/-- The document that a binary spells. -/
def scriptDocument? (binary : List UInt8) : Option Json :=
  ((decodeText? binary).bind Json.parse?).filter (Json.sound Json.deepest)

/-- Loads a scripted program. -/
def loadScript (binary : List UInt8) : Except String Kernel :=
  if binary.isEmpty then .error "empty binary"
  else
    match (scriptDocument? binary).bind Script.ofJson? with
    | some script => .ok script.kernel
    | none => .error s!"not a program ({binary.length} bytes)"

/-- The compiler and the loader of scripted programs. -/
def scriptToolchain (programs : List ScriptProgram) : Toolchain where
  compile name source _ _ := compileScript programs name source
  load := loadScript

end DspHost
