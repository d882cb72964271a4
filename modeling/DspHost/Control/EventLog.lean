import DspHost.Control.Event

/-!
# The event log

Every event that a handle delivers is recorded with a sequence number. The log is bounded: past its
capacity the oldest entries are trimmed, while numbers keep counting.

## Main definitions

* `LogEntry`, `EventLog` — the entries, and the log
* `EventLog.append` — records an event under the next number
* `EventLog.toJson` — the log as a document
-/

namespace DspHost

/-- How many entries a log retains when nothing else is asked for. -/
def defaultLogCapacity : Nat := 10000

/-- A recorded event. -/
structure LogEntry where
  /-- Its place in the order of all recorded events. -/
  sequence : Nat
  /-- The event. -/
  event : Event
  deriving DecidableEq, Repr

/-- A bounded record of events. -/
structure EventLog where
  /-- How many entries are retained. -/
  capacity : Nat
  /-- The number of the next entry. -/
  next : Nat
  /-- The retained entries, oldest first. -/
  entries : List LogEntry
  deriving DecidableEq, Repr

namespace EventLog

/-- A log without entries. -/
def empty (capacity : Nat) : EventLog := ⟨capacity, 0, []⟩

/-- The last `capacity` entries of a list. -/
def trim (capacity : Nat) (entries : List LogEntry) : List LogEntry :=
  entries.drop (entries.length - capacity)

/-- Records an event under the next number. -/
def append (log : EventLog) (event : Event) : EventLog :=
  ⟨log.capacity, log.next + 1, trim log.capacity (log.entries ++ [⟨log.next, event⟩])⟩

/-- The log as a document. -/
def toJson (log : EventLog) : Json :=
  .array (log.entries.map fun entry =>
    .ofMembers [("seq", .ofNat entry.sequence), ("event", entry.event.toJson)])

theorem length_entries_append_le (log : EventLog) (event : Event) :
    (log.append event).entries.length ≤ log.capacity := by
  simp only [append, trim, List.length_drop]
  omega

end EventLog

end DspHost
