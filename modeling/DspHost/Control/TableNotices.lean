import DspHost.Control.Table
import DspHost.Notice

/-!
# Notices about parameter tables

A table can be built from every tree. What is unusual about a tree is reported in the order of the
walk: annotations that bind nothing, widgets that are not driven, and controls whose path was taken
before. The last are bound all the same, and the path leads to them from then on.

## Main definitions

* `Visit.notices` — what there is to say about one step of the walk
* `ParameterTable.buildNotices` — what there is to say about a whole table
-/

namespace DspHost

/-- What there is to say about the annotations of a control. -/
def annotationNotices (annotations : List MetaEntry) : List Notice :=
  match midiText? annotations with
  | none => []
  | some text =>
    match (MidiSource.ofText text).2 with
    | none => []
    | some .invalid => [.invalidMidiText text]
    | some .unsupported => [.unsupportedMidiText text]

/-- What there is to say about a path that may be taken already. -/
def ParameterTable.shadowNotices (t : ParameterTable) (path : String) : List Notice :=
  ((t.lookup? path).map (Notice.shadowed path)).toList

/-- What there is to say about one step of a walk that has built `t` so far. -/
def Visit.notices (t : ParameterTable) : Visit → List Notice
  | .input c => annotationNotices c.annotations ++ t.shadowNotices c.address
  | .output b => annotationNotices b.annotations ++ t.shadowNotices b.address
  | .unsupported => [.skippedWidget]
  | .enter _ => []
  | .exit _ => []

namespace ParameterTable

/-- The table after one more step of the walk. -/
def pushVisit (t : ParameterTable) (scope : Scope) (visit : Visit) : ParameterTable :=
  match Binding.ofVisit? scope visit with
  | some binding => t.push binding
  | none => t

/-- What there is to say about the rest of a walk. -/
def walkNotices (t : ParameterTable) (scope : Scope) : List Visit → List Notice
  | [] => []
  | visit :: rest => visit.notices t ++ walkNotices (t.pushVisit scope visit) scope rest

/-- What there is to say about the table of an instrument and an optional effect. -/
def buildNotices (voice : ModuleMetadata) (effect : Option ModuleMetadata) (polyphonic : Bool) :
    List Notice :=
  (empty polyphonic).walkNotices .voice (visitsOf voice.ui)
    ++ match effect with
      | none => []
      | some effect =>
        ((empty polyphonic).pushTree .voice voice.ui).walkNotices .effect (visitsOf effect.ui)

end ParameterTable

end DspHost
