import DspHost.Engine.Setup
import DspHost.Text.Columns

/-!
# Inspection of a module

What a module would be given if it were hosted: the plan of its arena and the table of its controls.

## Main definitions

* `Inspection` — the plan and the table
* `InspectionError` — why there is no plan
* `Inspection.ofModule` — the inspection of a module under a configuration
* `Inspection.notices` — what there is to say about the table
* `Inspection.text` — the inspection as a text
-/

namespace DspHost

/-- Why a module has no plan. -/
inductive InspectionError where
  /-- The pointer width is not supported. -/
  | config (flaw : ConfigFlaw)
  /-- The arena could not be planned. -/
  | layout (error : LayoutError)
  deriving DecidableEq, Repr

/-- The message of an inspection error. -/
def InspectionError.message : InspectionError → String
  | config flaw => flaw.fullMessage
  | layout error => error.message

/-- What a module would be given if it were hosted. -/
structure Inspection where
  /-- The description of the module. -/
  metadata : ModuleMetadata
  /-- The description of its effect, if it would be hosted. -/
  effect : Option ModuleMetadata
  /-- The plan of its arena. -/
  plan : MemoryPlan
  /-- The table of its controls. -/
  table : ParameterTable

namespace Inspection

/-- The inspection of a module and its effect. The effect counts with voices only. Of the
configuration the pointer width and what the plan depends on are looked at. -/
def ofModule (metadata : ModuleMetadata) (effect : Option ModuleMetadata) (config : EngineConfig) :
    Except InspectionError Inspection := do
  let polyphonic := (Polyphony.ofRequested config.voices).isPoly
  let effect := effect.filter fun _ => polyphonic
  let width ← config.width.mapError .config
  let plan ← (layoutFor metadata effect config width).plan.mapError .layout
  return { metadata, effect, plan, table := .build metadata effect polyphonic }

/-- What there is to say about the table. -/
def notices (i : Inspection) : List Notice :=
  ParameterTable.buildNotices i.metadata i.effect i.table.polyphonic

/-! ### The text -/

/-- The line of a polyphony. -/
def modeLine : Polyphony → String
  | .mono => "Mode: monophonic"
  | .poly voices => s!"Mode: polyphonic, {voices} voices"

/-- The line of a region. -/
def regionLine (r : PlacedRegion) : String :=
  "  " ++ alignRight 8 (toString r.start) ++ " .. " ++ alignLeft 8 (toString r.stop) ++ " "
    ++ r.kind.label

/-- The regions of a plan by the address they begin at. -/
def sortedRegions (plan : MemoryPlan) : List PlacedRegion :=
  -- Regions that begin at one address keep their order.
  plan.regions.mergeSort fun r r' => r.start ≤ r'.start

/-- The lines of a plan. -/
def planLines (plan : MemoryPlan) : List String :=
  [modeLine plan.polyphony,
    s!"Arena: {plan.arenaSize} bytes ({plan.pages} pages of {plan.pageSize}), {plan.used} used"]
    ++ (sortedRegions plan).map regionLine

/-- The label of a control. -/
def kindLabel : BindingKind → String
  | .input widget => widget.label
  | .output => "Bargraph"

/-- The remark about the message that moves a control. -/
def sourceRemark : MidiSource → String
  | .unbound => ""
  | .controller number => s!" cc {number.toNat}"
  | .wheel => " pitchwheel"

/-- The remark about the instances that a control lives in. -/
def scopeRemark : Scope → String
  | .voice => ""
  | .effect => " [effect]"

/-- The line of a control. -/
def bindingLine (b : Binding) : String :=
  let number := Single.written .plain
  "  " ++ alignLeft 32 b.path ++ " " ++ alignLeft 9 (kindLabel b.kind) ++ " @"
    ++ alignLeft 5 (toString b.index) ++ " " ++ number b.min ++ " .. " ++ number b.max
    ++ " (default " ++ number b.default ++ ")" ++ sourceRemark b.midi ++ scopeRemark b.scope

/-- The lines of a table. -/
def tableLines (table : ParameterTable) : List String :=
  [s!"Controls: {table.size}"] ++ table.bindings.map bindingLine
    ++ ["", s!"Automatable: {table.descriptors.length}"]
    ++ table.descriptors.map fun d => "  " ++ d.path

/-- The line of a module. -/
def moduleLine (m : ModuleMetadata) : String :=
  s!"Module: {m.name} ({m.inputs} in, {m.outputs} out, {m.size} byte instance)"

/-- The lines of an inspection. -/
def lines (i : Inspection) : List String :=
  [moduleLine i.metadata] ++ planLines i.plan ++ [""] ++ tableLines i.table

/-- The inspection as a text. -/
def text (i : Inspection) : String := textOfLines i.lines

end Inspection

end DspHost
