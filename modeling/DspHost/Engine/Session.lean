import DspHost.Control.Handle
import DspHost.Engine.Process

/-!
# Both ends of a processor

The control end queues commands and the audio end takes them when a block is processed; the audio
end queues readbacks and the control end takes them when it is asked to.

## Main definitions

* `Session` — a processor and its handle
* `Session.process` — one block
* `Session.poll`, `Session.value?` — readbacks and values at the control end
-/

namespace DspHost

/-- A processor and its handle. -/
structure Session where
  /-- The audio end. -/
  processor : Processor
  /-- The control end. -/
  handle : Handle

namespace Session

/-- The session with another control end. -/
def withHandle (s : Session) (handle : Handle) : Session := { s with handle }

/-- Processes one block: the outcome, the host's output buffers, and both ends. -/
def process (s : Session) (inputs outputs : HostBlock) (automation : List Automation) :
    BlockStatus × HostBlock × Session :=
  let (status, outputs, processor, pending) :=
    s.processor.process s.handle.commands inputs outputs automation
  (status, outputs, ⟨processor, { s.handle with commands := pending }⟩)

/-- Takes pending readbacks and answers how many there were. -/
def poll (s : Session) : Nat × Session :=
  let readbacks := s.processor.readbacks
  (readbacks.items.length,
    ⟨{ s.processor with readbacks := readbacks.clear }, s.handle.receive readbacks.items⟩)

/-- The last value of the control with a path, after pending readbacks were taken. -/
def value? (s : Session) (path : String) : Option Single × Session :=
  let (_, s) := s.poll
  (s.handle.value? path, s)

/-- Sends the events that another session has recorded, and answers how many were not refused. -/
def replay (s : Session) (log : EventLog) : Noted (Nat × Session) := do
  let (count, handle) ← log.replayInto s.handle
  return (count, s.withHandle handle)

end Session

end DspHost
