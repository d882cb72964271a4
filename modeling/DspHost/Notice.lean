import DspHost.Cache.Error
import DspHost.Cache.Fingerprint
import DspHost.Control.Command

/-!
# Notices

What happens off the audio thread and is worth a line to an operator is a notice. Operations answer
notices next to their results; wording, severity and origin are decided here.

## Main definitions

* `Notice` — what there is to report
* `Notice.severity`, `Notice.origin`, `Notice.message?`, `Notice.line?` — how it is reported
* `Noted` — a result with the notices made on the way
-/

namespace DspHost

/-- What there is to report to an operator. -/
inductive Notice where
  /-- An annotation about messages names no controller. -/
  | invalidMidiText (text : String)
  /-- An annotation names a message that controls do not listen to. -/
  | unsupportedMidiText (text : String)
  /-- A widget is not driven. -/
  | skippedWidget
  /-- A control has the path of an earlier one. -/
  | shadowed (path : String) (previous : BindingId)
  /-- An event came after teardown. -/
  | ignoredEvent (event : Event)
  /-- A command found the queue full. -/
  | droppedCommand (command : Command)
  /-- An event was refused, and nobody waited for the answer. -/
  | refusedEvent (error : ControlError)
  /-- A message has no event. -/
  | unroutedMessage (bytes : List UInt8)
  /-- A recorded event was refused. -/
  | skippedReplay (sequence : Nat) (error : ControlError)
  /-- An effect does not have the channels of its instrument. -/
  | unfitEffect (inputs outputs expected : Nat)
  /-- A processor was set up. -/
  | attached (name : String) (voices : Nat) (withEffect : Bool) (controls arenaSize : Nat)
  /-- A module was already built. -/
  | cacheHit (name : String) (fingerprint : Fingerprint)
  /-- A module was built. -/
  | compiled (name : String) (fingerprint : Fingerprint) (size : Nat) (withEffect : Bool)
  /-- An effect could not be built. -/
  | missingEffect (name : String) (error : CompileError)
  /-- A module was dropped from the cache. -/
  | evicted (name : String) (fingerprint : Fingerprint)
  /-- The effect of a bundle could not be built. -/
  | droppedEffect (error : CompileError)
  /-- A bundle was imported. -/
  | imported (name : String) (fingerprint : Fingerprint)
  deriving DecidableEq, Repr

/-- How urgent a notice is. -/
inductive Severity where
  /-- Traffic. -/
  | trace
  /-- Decisions. -/
  | debug
  /-- Milestones. -/
  | info
  /-- Losses. -/
  | warn
  deriving DecidableEq, Repr

/-- The name of a severity. -/
def Severity.name : Severity → String
  | trace => "TRACE"
  | debug => "DEBUG"
  | info => "INFO"
  | warn => "WARN"

/-- Which part of the host makes a notice. -/
inductive Origin where
  /-- The control path. -/
  | control
  /-- The processor. -/
  | engine
  /-- The module cache. -/
  | cache
  deriving DecidableEq, Repr

/-- The name that notices of a part are filed under. -/
def Origin.name : Origin → String
  | control => "saavy_host::control"
  | engine => "saavy_host::engine"
  | cache => "saavy_host::cache"

namespace Notice

/-- The severity of a notice. -/
def severity : Notice → Severity
  | invalidMidiText _ => .warn
  | unsupportedMidiText _ => .debug
  | skippedWidget => .debug
  | shadowed _ _ => .warn
  | ignoredEvent _ => .debug
  | droppedCommand _ => .warn
  | refusedEvent _ => .warn
  | unroutedMessage _ => .trace
  | skippedReplay _ _ => .warn
  | unfitEffect _ _ _ => .warn
  | attached _ _ _ _ _ => .info
  | cacheHit _ _ => .debug
  | compiled _ _ _ _ => .info
  | missingEffect _ _ => .warn
  | evicted _ _ => .debug
  | droppedEffect _ => .warn
  | imported _ _ => .info

/-- The part of the host that makes a notice. -/
def origin : Notice → Origin
  | unfitEffect _ _ _ => .engine
  | attached _ _ _ _ _ => .engine
  | cacheHit _ _ => .cache
  | compiled _ _ _ _ => .cache
  | missingEffect _ _ => .cache
  | evicted _ _ => .cache
  | droppedEffect _ => .cache
  | imported _ _ => .cache
  | _ => .control

/-- The bytes of a message, in brackets. -/
def byteList (bytes : List UInt8) : String :=
  "[" ++ ", ".intercalate (bytes.map fun b => String.ofList (hexText 2 b.toNat)) ++ "]"

/-- The text of a notice. It names a fingerprint by its first bytes, and there is none if these end
within a character. -/
def message? : Notice → Option String
  | invalidMidiText text => some ("ignoring invalid midi annotation " ++ quoted text)
  | unsupportedMidiText text => some ("unsupported midi annotation " ++ quoted text)
  | skippedWidget => some "skipping unsupported widget"
  | shadowed path previous => some s!"{path} shadows binding {previous} with the same path"
  | ignoredEvent event => some s!"ignoring {event.label} after destroy"
  | droppedCommand command => some s!"control queue full, dropped {command.label}"
  | refusedEvent error => some error.message
  | unroutedMessage bytes => some s!"unrouted midi {byteList bytes}"
  | skippedReplay sequence error => some s!"replay skipped seq {sequence}: {error.message}"
  | unfitEffect inputs outputs expected =>
    some s!"effect {inputs}x{outputs} does not match {expected} outputs, running without it"
  | attached name voices withEffect controls arenaSize =>
    let effect := if withEffect then " + effect" else ""
    some s!"attached {name} ({voices} voices{effect}, {controls} controls, {arenaSize} byte arena)"
  | cacheHit name fingerprint =>
    fingerprint.short?.map fun short => s!"hit {name} ({short})"
  | compiled name fingerprint size withEffect =>
    let effect := if withEffect then ", with effect" else ""
    fingerprint.short?.map fun short => s!"compiled {name} ({short}, {size} bytes{effect})"
  | missingEffect name error => some s!"no effect for {name}: {error.message}"
  | evicted name fingerprint =>
    fingerprint.short?.map fun short => s!"evicted {name} ({short})"
  | droppedEffect error => some s!"dropping bundled effect: {error.message}"
  | imported name fingerprint =>
    fingerprint.short?.map fun short => s!"imported {name} ({short})"

/-- The line of a notice in a log. -/
def line? (n : Notice) : Option String :=
  n.message?.map fun message => s!"{n.severity.name} {n.origin.name}: {message}"

end Notice

/-- A result with the notices made on the way, in order. -/
structure Noted (α : Type) where
  /-- The result. -/
  value : α
  /-- The notices. -/
  notices : List Notice := []

namespace Noted

instance : Monad Noted where
  pure value := ⟨value, []⟩
  bind x f := ⟨(f x.value).value, x.notices ++ (f x.value).notices⟩

/-- A notice without a result. -/
def note (notice : Notice) : Noted Unit := ⟨(), [notice]⟩

/-- Several notices without a result. -/
def noteAll (notices : List Notice) : Noted Unit := ⟨(), notices⟩

@[simp] theorem value_pure {α : Type} (x : α) : (pure x : Noted α).value = x := rfl

@[simp] theorem value_bind {α β : Type} (x : Noted α) (f : α → Noted β) :
    (x >>= f).value = (f x.value).value := rfl

@[simp] theorem notices_pure {α : Type} (x : α) : (pure x : Noted α).notices = [] := rfl

@[simp] theorem notices_bind {α β : Type} (x : Noted α) (f : α → Noted β) :
    (x >>= f).notices = x.notices ++ (f x.value).notices := rfl

end Noted

end DspHost
