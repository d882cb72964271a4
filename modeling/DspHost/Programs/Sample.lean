import DspHost.Cache.Request
import DspHost.Cache.Toolchain
import DspHost.Programs.Volume
import DspHost.Text.Blank
import DspHost.Text.Quoted
import DspHost.Text.Search

/-!
# Sample programs

Small programs to try a host with. A source names its program before the first semicolon:

* `synth` — a voice with frequency, gain and gate, a controller-bound cutoff and a level meter
* `amp` — a gain stage with a wheel-bound offset and a peak meter
* `crash` — a program that reaches outside the arena in its third block

A source that says `effect = volume` has a volume stage as its effect.

## Main definitions

* `synthKernel`, `ampKernel`, `crashKernel` — the programs
* `sampleToolchain` — the compiler and the loader that know them
-/

namespace DspHost

/-! ### Descriptions -/

/-- The description of `synth`. -/
def synthDescription : String :=
  "\x7b\n"
    ++ "    \"name\": \"synth\", \"size\": 28, \"inputs\": 0, \"outputs\": 2,\n"
    ++ "    \"ui\": [\x7b \"type\": \"vgroup\", \"label\": \"synth\", \"items\": [\n"
    ++ "        \x7b \"type\": \"hslider\", \"label\": \"freq\", \"address\": \"/synth/freq\","
    ++ " \"index\": 0,\n"
    ++ "          \"init\": 440, \"min\": 20, \"max\": 2000, \"step\": 1 \x7d,\n"
    ++ "        \x7b \"type\": \"hslider\", \"label\": \"gain\", \"address\": \"/synth/gain\","
    ++ " \"index\": 4,\n"
    ++ "          \"init\": 0.5, \"min\": 0, \"max\": 1, \"step\": 0.01 \x7d,\n"
    ++ "        \x7b \"type\": \"button\", \"label\": \"gate\", \"address\": \"/synth/gate\","
    ++ " \"index\": 8 \x7d,\n"
    ++ "        \x7b \"type\": \"hslider\", \"label\": \"cutoff\", \"address\": \"/synth/cutoff\","
    ++ " \"index\": 12,\n"
    ++ "          \"init\": 1, \"min\": 0, \"max\": 1, \"step\": 0.01,"
    ++ " \"meta\": [\x7b \"midi\": \"ctrl 74\" \x7d] \x7d,\n"
    ++ "        \x7b \"type\": \"vbargraph\", \"label\": \"level\", \"address\": \"/synth/level\","
    ++ " \"index\": 16,\n"
    ++ "          \"min\": 0, \"max\": 1 \x7d\n"
    ++ "    ]\x7d]\n"
    ++ "\x7d"

/-- The description of `amp`. -/
def ampDescription : String :=
  "\x7b\n"
    ++ "    \"name\": \"amp\", \"size\": 16, \"inputs\": 2, \"outputs\": 2,\n"
    ++ "    \"ui\": [\x7b \"type\": \"hgroup\", \"label\": \"amp\", \"items\": [\n"
    ++ "        \x7b \"type\": \"hslider\", \"label\": \"gain\", \"address\": \"/amp/gain\","
    ++ " \"index\": 0,\n"
    ++ "          \"init\": 1, \"min\": 0, \"max\": 2, \"step\": 0.01,"
    ++ " \"meta\": [\x7b \"midi\": \"ctrl 7\" \x7d] \x7d,\n"
    ++ "        \x7b \"type\": \"hslider\", \"label\": \"offset\", \"address\": \"/amp/offset\","
    ++ " \"index\": 4,\n"
    ++ "          \"init\": 0, \"min\": -1, \"max\": 1, \"step\": 0.01,"
    ++ " \"meta\": [\x7b \"midi\": \"pitchwheel\" \x7d] \x7d,\n"
    ++ "        \x7b \"type\": \"button\", \"label\": \"gate\", \"address\": \"/amp/gate\","
    ++ " \"index\": 8 \x7d,\n"
    ++ "        \x7b \"type\": \"hbargraph\", \"label\": \"peak\", \"address\": \"/amp/peak\","
    ++ " \"index\": 12,\n"
    ++ "          \"min\": 0, \"max\": 4 \x7d\n"
    ++ "    ]\x7d]\n"
    ++ "\x7d"

/-- The description of `crash`. -/
def crashDescription : String :=
  "\x7b\n"
    ++ "    \"name\": \"crash\", \"size\": 4, \"inputs\": 0, \"outputs\": 1, \"ui\": []\n"
    ++ "\x7d"

/-- The description of the volume stage. -/
def sampleEffectDescription : String :=
  "\x7b\n"
    ++ "    \"name\": \"effect\", \"size\": 4, \"inputs\": 2, \"outputs\": 2,\n"
    ++ "    \"ui\": [\x7b \"type\": \"vgroup\", \"label\": \"effect\", \"items\": [\n"
    ++ "        \x7b \"type\": \"hslider\", \"label\": \"volume\", \"address\": \"/effect/volume\","
    ++ " \"index\": 0,\n"
    ++ "          \"init\": 1, \"min\": 0, \"max\": 1, \"step\": 0.01,"
    ++ " \"meta\": [\x7b \"midi\": \"ctrl 11\" \x7d] \x7d\n"
    ++ "    ]\x7d]\n"
    ++ "\x7d"

/-! ### `synth` -/

namespace Synth

/-- Offset of the frequency. -/
def freq : Nat := 0

/-- Offset of the gain. -/
def gain : Nat := 4

/-- Offset of the gate. -/
def gate : Nat := 8

/-- Offset of the cutoff. -/
def cutoff : Nat := 12

/-- Offset of the level. -/
def level : Nat := 16

/-- Offset of the phase. -/
def phase : Nat := 20

/-- Offset of the sample rate. -/
def sampleRate : Nat := 24

/-- Clears the signal state. -/
def clear (dsp : Nat) : Access Unit := do
  Access.storeSingle (dsp + level) .zero
  Access.storeSingle (dsp + phase) .zero

/-- Sets up an instance. -/
def init (dsp rate : Nat) : Access Unit := do
  Access.storeSingle (dsp + freq) (.ofNat 440)
  Access.storeSingle (dsp + gain) (.ofQuotient false 1 2)
  Access.storeSingle (dsp + gate) .zero
  Access.storeSingle (dsp + cutoff) .one
  Access.storeSingle (dsp + sampleRate) (.ofNat rate)
  clear dsp

/-- The level of a block: full while the gate is open, then half of the last one. -/
def blockLevel (dsp : Nat) (gateValue : Single) : Access Single := do
  if Single.zero.less gateValue then return .one
  let last ← Access.loadSingle (dsp + level)
  return last * .ofQuotient false 1 2

/-- One frame of a sawtooth: its phase. -/
def frame (target : Nat) (advance amp level phase : Single) (i : Nat) : Access Single := do
  let phase := (phase + advance).fract
  Access.storeSingle (frameAddress target i) ((Single.ofNat 2 * phase - .one) * amp * level)
  return phase

/-- Renders one channel and answers the phase at its end. -/
def channel (count outputs : Nat) (advance amp level start : Single) (index : Nat) :
    Access Single := do
  let target ← Access.channel outputs index
  foldFrames count (frame target advance amp level) start

/-- Renders a block of a number of channels, all alike. -/
def compute (channels dsp count outputs : Nat) : Access Unit := do
  -- The order of the reads decides which fault is reported.
  let rate ← Access.loadSingle (dsp + sampleRate)
  let freqValue ← Access.loadSingle (dsp + freq)
  let gainValue ← Access.loadSingle (dsp + gain)
  let cutoffValue ← Access.loadSingle (dsp + cutoff)
  let gateValue ← Access.loadSingle (dsp + gate)
  let levelValue ← blockLevel dsp gateValue
  let start ← Access.loadSingle (dsp + phase)
  let render := channel count outputs (freqValue / rate) (gainValue * cutoffValue) levelValue start
  let last ← Access.foldEach (fun _ index => render index) start (List.range channels)
  Access.storeSingle (dsp + level) levelValue
  Access.storeSingle (dsp + phase) last

end Synth

/-- The voice `synth` with a number of channels. -/
def synthKernel (channels : Nat) : Kernel where
  init := Synth.init
  clear := Synth.clear
  compute dsp count _ outputs := Synth.compute channels dsp count outputs

/-! ### `amp` -/

namespace Amp

/-- Sets up an instance. -/
def init (dsp : Nat) : Access Unit := do
  Access.storeSingle dsp .one
  Access.storeSingle (dsp + 4) .zero
  Access.storeSingle (dsp + 8) .zero
  Access.storeSingle (dsp + 12) .zero

/-- One frame: the peak after it. -/
def frame (source target : Nat) (gain offset peak : Single) (i : Nat) : Access Single := do
  let sample ← Access.loadSingle (frameAddress source i)
  let result := sample * gain + offset
  Access.storeSingle (frameAddress target i) result
  return peak.greater result.abs

/-- Renders one channel and answers the peak after it. -/
def channel (count inputs outputs : Nat) (gain offset peak : Single) (index : Nat) :
    Access Single := do
  let source ← Access.channel inputs index
  let target ← Access.channel outputs index
  foldFrames count (fun peak => frame source target gain offset peak) peak

/-- Renders a block of a number of channels. -/
def compute (channels dsp count inputs outputs : Nat) : Access Unit := do
  let gain ← Access.loadSingle dsp
  let offset ← Access.loadSingle (dsp + 4)
  let peak ← Access.foldEach (fun peak => channel count inputs outputs gain offset peak) .zero
    (List.range channels)
  Access.storeSingle (dsp + 12) peak

end Amp

/-- The gain stage `amp` with a number of channels. -/
def ampKernel (channels : Nat) : Kernel where
  init dsp _ := Amp.init dsp
  clear dsp := Access.storeSingle (dsp + 12) .zero
  compute := Amp.compute channels

/-! ### `crash` -/

/-- Renders silence, except in the third block. -/
def crashCompute (dsp count outputs : Nat) : Access Unit := do
  let last ← Access.load32 dsp
  Access.store32 dsp (last + 1)
  if last + 1 = 3 then
    Access.storeSingle (← Access.arenaSize) .one
  else
    let target ← Access.channel outputs 0
    fillFrames count target .zero

/-- The program `crash`. -/
def crashKernel : Kernel where
  init dsp _ := Access.store32 dsp 0
  clear _ := return ()
  compute dsp count _ outputs := crashCompute dsp count outputs

/-! ### The toolchain -/

/-- The name of the program that a source asks for. -/
def programName (source : String) : String :=
  String.ofList (trimBlank (source.toList.takeWhile (· != ';')))

/-- Compiles the sample programs and their effect. -/
def compileSample (name source : String) : Except String CompilerOutput :=
  if name = effectClassName then
    if containsText "effect = volume".toList source.toList then
      .ok ⟨"volume".toUTF8.toList, sampleEffectDescription⟩
    else .error "undefined symbol: effect"
  else
    match programName source with
    | "synth" => .ok ⟨"synth".toUTF8.toList, synthDescription⟩
    | "amp" => .ok ⟨"amp".toUTF8.toList, ampDescription⟩
    | "crash" => .ok ⟨"crash".toUTF8.toList, crashDescription⟩
    | other => .error ("unknown program Some(" ++ quoted other ++ ")")

/-- Loads the sample programs and their effect. -/
def loadSample (binary : List UInt8) : Except String Kernel :=
  if binary = "synth".toUTF8.toList then .ok (synthKernel 2)
  else if binary = "amp".toUTF8.toList then .ok (ampKernel 2)
  else if binary = "crash".toUTF8.toList then .ok crashKernel
  else if binary = "volume".toUTF8.toList then .ok (volumeKernel 2 .one)
  else .error "unknown binary"

/-- The compiler and the loader of the sample programs. -/
def sampleToolchain : Toolchain where
  compile name source _ _ := compileSample name source
  load := loadSample

end DspHost
