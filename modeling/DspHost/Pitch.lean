import DspHost.Number.Exp2

/-!
# Notes as control values

## Main definitions

* `noteFrequency` — the frequency of a note in equal temperament, 440 Hz at note 69
* `velocityGain` — a velocity as a linear gain
-/

namespace DspHost

/-- The frequency of a note: twelve notes double it, and note 69 has 440 Hz. -/
def noteFrequency (note : UInt8) : Single :=
  .ofNat 440 * ((.ofNat note.toNat - .ofNat 69) / .ofNat 12 : Single).exp2

/-- A velocity as a linear gain, 127 being one. -/
def velocityGain (velocity : UInt8) : Single := .ofNat velocity.toNat / .ofNat 127

end DspHost
