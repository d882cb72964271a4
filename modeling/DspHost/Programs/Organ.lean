import DspHost.Cache.Request
import DspHost.Cache.Toolchain
import DspHost.Number.Exp2
import DspHost.Programs.Volume
import DspHost.Text.Search

/-!
# The demo organ

A sawtooth voice with a one-pole lowpass and a linear envelope, and a master volume as its effect.
The toolchain knows this one program and is there so that a host can be tried without a compiler.

## Main definitions

* `organSource` — the program
* `organKernel` — the voice
* `organToolchain` — the compiler and the loader that know it
-/

namespace DspHost

/-- The program of the demo organ. -/
def organSource : String :=
  "import(\"stdfaust.lib\");\n"
    ++ "freq = hslider(\"freq\", 440, 20, 2000, 1);\n"
    ++ "gain = hslider(\"gain\", 0.5, 0, 1, 0.01);\n"
    ++ "gate = button(\"gate\");\n"
    ++ "bright = hslider(\"bright[midi:ctrl 74]\", 0.3, 0.01, 1, 0.01);\n"
    ++ "bend = hslider(\"bend[midi:pitchwheel]\", 0, -2, 2, 0.01);\n"
    ++ "env = en.asr(0.01, 1, 0.3, gate) : hbargraph(\"level\", 0, 1);\n"
    ++ "process = os.sawtooth(freq * ba.semi2ratio(bend)) : fi.lowpass(1, bright * 8000)"
    ++ " * env * gain;\n"
    ++ "effect = *(hslider(\"volume[midi:ctrl 7]\", 0.8, 0, 1, 0.01));\n"

/-- The description of the voice. -/
def organDescription : String :=
  "\x7b\n"
    ++ "    \"name\": \"organ\", \"filename\": \"organ.dsp\", \"size\": 36, \"inputs\": 0,"
    ++ " \"outputs\": 1,\n"
    ++ "    \"ui\": [\x7b \"type\": \"vgroup\", \"label\": \"organ\", \"items\": [\n"
    ++ "        \x7b \"type\": \"hslider\", \"label\": \"freq\", \"address\": \"/organ/freq\","
    ++ " \"index\": 0,\n"
    ++ "          \"init\": 440, \"min\": 20, \"max\": 2000, \"step\": 1 \x7d,\n"
    ++ "        \x7b \"type\": \"hslider\", \"label\": \"gain\", \"address\": \"/organ/gain\","
    ++ " \"index\": 4,\n"
    ++ "          \"init\": 0.5, \"min\": 0, \"max\": 1, \"step\": 0.01 \x7d,\n"
    ++ "        \x7b \"type\": \"button\", \"label\": \"gate\", \"address\": \"/organ/gate\","
    ++ " \"index\": 8 \x7d,\n"
    ++ "        \x7b \"type\": \"hslider\", \"label\": \"bright\", \"address\": \"/organ/bright\","
    ++ " \"index\": 12,\n"
    ++ "          \"init\": 0.3, \"min\": 0.01, \"max\": 1, \"step\": 0.01,"
    ++ " \"meta\": [\x7b \"midi\": \"ctrl 74\" \x7d] \x7d,\n"
    ++ "        \x7b \"type\": \"hslider\", \"label\": \"bend\", \"address\": \"/organ/bend\","
    ++ " \"index\": 16,\n"
    ++ "          \"init\": 0, \"min\": -2, \"max\": 2, \"step\": 0.01,"
    ++ " \"meta\": [\x7b \"midi\": \"pitchwheel\" \x7d] \x7d,\n"
    ++ "        \x7b \"type\": \"hbargraph\", \"label\": \"level\", \"address\": \"/organ/level\","
    ++ " \"index\": 20,\n"
    ++ "          \"min\": 0, \"max\": 1 \x7d\n"
    ++ "    ]\x7d]\n"
    ++ "\x7d"

/-- The description of the volume. -/
def organEffectDescription : String :=
  "\x7b\n"
    ++ "    \"name\": \"effect\", \"size\": 4, \"inputs\": 1, \"outputs\": 1,\n"
    ++ "    \"ui\": [\x7b \"type\": \"vgroup\", \"label\": \"effect\", \"items\": [\n"
    ++ "        \x7b \"type\": \"hslider\", \"label\": \"volume\", \"address\": \"/effect/volume\","
    ++ " \"index\": 0,\n"
    ++ "          \"init\": 0.8, \"min\": 0, \"max\": 1, \"step\": 0.01,"
    ++ " \"meta\": [\x7b \"midi\": \"ctrl 7\" \x7d] \x7d\n"
    ++ "    ]\x7d]\n"
    ++ "\x7d"

/-! ### The voice -/

namespace Organ

/-- Offset of the frequency. -/
def freq : Nat := 0

/-- Offset of the gain. -/
def gain : Nat := 4

/-- Offset of the gate. -/
def gate : Nat := 8

/-- Offset of the coefficient of the lowpass. -/
def bright : Nat := 12

/-- Offset of the pitch bend in semitones. -/
def bend : Nat := 16

/-- Offset of the envelope. -/
def level : Nat := 20

/-- Offset of the phase. -/
def phase : Nat := 24

/-- Offset of the state of the lowpass. -/
def lowpass : Nat := 28

/-- Offset of the sample rate. -/
def sampleRate : Nat := 32

/-- The seconds in which the envelope opens. -/
def attack : Single := .ofQuotient false 1 100

/-- The seconds in which the envelope closes. -/
def release : Single := .ofQuotient false 3 10

/-- What a voice hands on from one frame to the next. -/
structure State where
  /-- The envelope. -/
  level : Single
  /-- The phase of the sawtooth. -/
  phase : Single
  /-- The state of the lowpass. -/
  lowpass : Single
  deriving DecidableEq, Repr

/-- What stays the same within a block. -/
structure Settings where
  /-- How far the envelope moves in a frame. -/
  step : Single
  /-- How far the phase moves in a frame. -/
  advance : Single
  /-- The coefficient of the lowpass. -/
  bright : Single
  /-- The gain. -/
  gain : Single
  deriving DecidableEq, Repr

/-- The state after one more frame. -/
def State.next (s : State) (settings : Settings) : State :=
  let level := (s.level + settings.step).clamp .zero .one
  let phase := (s.phase + settings.advance).fract
  let difference := Single.ofNat 2 * phase - .one - s.lowpass
  ⟨level, phase, s.lowpass + difference * settings.bright⟩

/-- The sample of a frame. -/
def State.sample (s : State) (settings : Settings) : Single :=
  s.lowpass * s.level * settings.gain * .ofQuotient false 3 10

/-- Clears the signal state. -/
def clear (dsp : Nat) : Access Unit := do
  Access.storeSingle (dsp + level) .zero
  Access.storeSingle (dsp + phase) .zero
  Access.storeSingle (dsp + lowpass) .zero

/-- Sets up an instance. -/
def init (dsp rate : Nat) : Access Unit := do
  Access.storeSingle (dsp + freq) (.ofNat 440)
  Access.storeSingle (dsp + gain) (.ofQuotient false 1 2)
  Access.storeSingle (dsp + gate) .zero
  Access.storeSingle (dsp + bright) (.ofQuotient false 3 10)
  Access.storeSingle (dsp + bend) .zero
  Access.storeSingle (dsp + sampleRate) (.ofNat rate)
  clear dsp

/-- How far the envelope moves in a frame: up while the gate is open, then down. -/
def envelopeStep (gateValue rate : Single) : Single :=
  if Single.zero.less gateValue then .one / (attack * rate) else -Single.one / (release * rate)

/-- Renders a block. -/
def compute (dsp count outputs : Nat) : Access Unit := do
  let rate ← Access.loadSingle (dsp + sampleRate)
  let gateValue ← Access.loadSingle (dsp + gate)
  let gainValue ← Access.loadSingle (dsp + gain)
  let bendValue ← Access.loadSingle (dsp + bend)
  let base ← Access.loadSingle (dsp + freq)
  let brightValue ← Access.loadSingle (dsp + bright)
  let levelValue ← Access.loadSingle (dsp + level)
  let phaseValue ← Access.loadSingle (dsp + phase)
  let lowpassValue ← Access.loadSingle (dsp + lowpass)
  let pitch := base * (bendValue / .ofNat 12 : Single).exp2
  let settings : Settings :=
    ⟨envelopeStep gateValue rate, pitch / rate, brightValue, gainValue⟩
  let target ← Access.loadPointer outputs
  let last ← foldFrames count (fun (s : State) i => do
    let next := s.next settings
    Access.storeSingle (frameAddress target i) (next.sample settings)
    return next) ⟨levelValue, phaseValue, lowpassValue⟩
  Access.storeSingle (dsp + level) last.level
  Access.storeSingle (dsp + phase) last.phase
  Access.storeSingle (dsp + lowpass) last.lowpass

end Organ

/-- The voice of the demo organ. -/
def organKernel : Kernel where
  init := Organ.init
  clear := Organ.clear
  compute dsp count _ outputs := Organ.compute dsp count outputs

/-- The effect of the demo organ. -/
def organEffectKernel : Kernel := volumeKernel 1 (.ofQuotient false 4 5)

/-! ### The toolchain -/

/-- The binary of the voice. -/
def organBinary : List UInt8 := "builtin:organ".toUTF8.toList

/-- The binary of the volume. -/
def organEffectBinary : List UInt8 := "builtin:volume".toUTF8.toList

/-- Compiles the demo organ and its effect, and nothing else. -/
def compileOrgan (name source : String) : Except String CompilerOutput :=
  if containsText organSource.toList source.toList then
    .ok (if name = effectClassName then ⟨organEffectBinary, organEffectDescription⟩
      else ⟨organBinary, organDescription⟩)
  else .error "the built-in compiler only knows the demo organ"

/-- Loads the demo organ and its effect, and nothing else. -/
def loadOrgan (binary : List UInt8) : Except String Kernel :=
  if binary = organBinary then .ok organKernel
  else if binary = organEffectBinary then .ok organEffectKernel
  else .error s!"unknown built-in binary ({binary.length} bytes)"

/-- The compiler and the loader of the demo organ. -/
def organToolchain : Toolchain where
  compile name source _ _ := compileOrgan name source
  load := loadOrgan

end DspHost
