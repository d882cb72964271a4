import DspHost.Control.Table
import DspHost.Memory.Plan

/-!
# Routing values into instances

A control lives at the same offset of every instance of its module. What is written to a control of
the instrument goes to every voice, or to the single instance; what is written to a control of the
effect goes to the effect. Values are read from voice zero, or from the effect.

A control whose offset lies outside its instance, or whose scope has no instance, is not written.

## Main definitions

* `Router` — where controls lie and which there are
* `Router.regions` — the instances that a control lives in
* `Router.set`, `Router.setOnVoice` — writes a control everywhere, or in one voice
* `Router.setPath` — writes a control that a host may automate
* `Router.controlChange`, `Router.pitchWheel` — writes every control that a message moves
* `Router.read?` — reads a control
-/

namespace DspHost

namespace Arena

/-- Writes a value at an offset of an instance, if it lies inside. -/
def writeField (a : Arena) (region : InstanceRegion) (index : Nat) (value : Single) : Arena :=
  match region.field? index with
  -- The plan keeps every instance inside the arena; a region from elsewhere need not be.
  | some address => if a.fits address 4 then a.setSample address value else a
  | none => a

/-- Reads the value at an offset of an instance, if it lies inside. -/
def readField? (a : Arena) (region : InstanceRegion) (index : Nat) : Option Single :=
  (region.field? index).bind fun address => (a.loadSingle address).toOption

@[simp] theorem size_writeField (a : Arena) (region : InstanceRegion) (index : Nat)
    (value : Single) : (a.writeField region index value).size = a.size := by
  unfold writeField
  split
  · split <;> simp [setSample]
  · rfl

/-- Writes a value at an offset of several instances. -/
def writeFields (a : Arena) (regions : List InstanceRegion) (index : Nat) (value : Single) :
    Arena :=
  regions.foldl (fun a region => a.writeField region index value) a

@[simp] theorem size_writeFields (a : Arena) (regions : List InstanceRegion) (index : Nat)
    (value : Single) : (a.writeFields regions index value).size = a.size := by
  unfold writeFields
  induction regions generalizing a with
  | nil => rfl
  | cons region rest ih => simp [ih]

end Arena

/-- Where controls lie, and which there are. -/
structure Router where
  /-- Where the instances lie. -/
  plan : MemoryPlan
  /-- The controls. -/
  table : ParameterTable
  deriving DecidableEq, Repr

namespace Router

/-- The instances that hold the controls of a scope. -/
def regions (r : Router) : Scope → List InstanceRegion
  | .voice => r.plan.voiceInstances
  | .effect => r.plan.effect.toList

/-- The instance that controls of a scope are read from. -/
def source? (r : Router) : Scope → Option InstanceRegion
  | .voice => r.plan.voiceInstance? 0
  | .effect => r.plan.effect

/-- Writes a control in every instance that holds it. -/
def set (r : Router) (id : BindingId) (value : Single) (a : Arena) : Arena :=
  match r.table.get? id with
  | some b => a.writeFields (r.regions b.scope) b.index value
  | none => a

/-- Writes a control in one voice. -/
def setOnVoice (r : Router) (region : InstanceRegion) (id : BindingId) (value : Single)
    (a : Arena) : Arena :=
  match r.table.get? id with
  | some b => a.writeField region b.index value
  | none => a

/-- The control that a host may automate under a path. -/
def automatable? (r : Router) (path : String) : Option BindingId :=
  (r.table.lookup? path).filter r.table.isAutomatable

/-- Writes the control with a path, if a host may automate it, and answers whether it did. -/
def setPath (r : Router) (path : String) (value : Single) (a : Arena) : Bool × Arena :=
  match r.automatable? path with
  | some id => (true, r.set id value a)
  | none => (false, a)

/-- Writes several controls, each with a value of its own. -/
def setEach (r : Router) (value : Binding → Single) (ids : List BindingId) (a : Arena) : Arena :=
  ids.foldl (fun a id =>
    match r.table.get? id with
    | some b => r.set id (value b) a
    | none => a) a

/-- Writes every control that a controller moves. -/
def controlChange (r : Router) (controller value : UInt8) (a : Arena) : Arena :=
  r.setEach (·.remapController value) (r.table.controller controller) a

/-- Writes every control that the pitch wheel moves. -/
def pitchWheel (r : Router) (value : UInt16) (a : Arena) : Arena :=
  r.setEach (·.remapWheel value) r.table.wheel a

/-- The value of a control. -/
def read? (r : Router) (a : Arena) (id : BindingId) : Option Single := do
  let b ← r.table.get? id
  a.readField? (← r.source? b.scope) b.index

@[simp] theorem size_set (r : Router) (id : BindingId) (value : Single) (a : Arena) :
    (r.set id value a).size = a.size := by
  unfold set
  split <;> simp

@[simp] theorem size_setOnVoice (r : Router) (region : InstanceRegion) (id : BindingId)
    (value : Single) (a : Arena) : (r.setOnVoice region id value a).size = a.size := by
  unfold setOnVoice
  split <;> simp

end Router

end DspHost
