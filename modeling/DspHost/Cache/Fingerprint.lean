import DspHost.Memory.Word
import DspHost.Sha256

/-!
# Fingerprints

A compilation is identified by a digest of everything it depends on: the source, who allocates the
module's memory, and the arguments of the compiler. Each text is preceded by its length and the
arguments by their number, so that different compilations are spelled out differently.

## Main definitions

* `MemoryMode` — who allocates the module's memory
* `digestInput` — the bytes that are digested
* `Fingerprint`, `Fingerprint.compute` — the digest
* `Fingerprint.short?` — its first twelve bytes, for messages
-/

namespace DspHost

/-- Who allocates the memory of a module. -/
inductive MemoryMode where
  /-- The host provides the arena. -/
  | external
  /-- The module allocates its own. -/
  | internal
  deriving DecidableEq, Repr, Inhabited

/-- The tag of a memory mode in a digest. -/
def MemoryMode.tag : MemoryMode → String
  | external => "external_memory"
  | internal => "internal_memory"

/-- The bytes of a text, preceded by their number. -/
def digestField (text : String) : List UInt8 :=
  wordBytes 8 text.utf8ByteSize ++ text.toUTF8.toList

/-- The bytes that identify a compilation. -/
def digestInput (source : String) (mode : MemoryMode) (args : List String) : List UInt8 :=
  digestField source ++ digestField mode.tag ++ wordBytes 8 args.length ++ args.flatMap digestField

/-- The identity of a compilation. -/
structure Fingerprint where
  /-- The text of the digest. -/
  text : String
  deriving DecidableEq, Repr, Inhabited

/-- The characters that make up the first `count` bytes of a text, the whole text if it is shorter;
none if the cut would split a character. -/
def takeBytes? : Nat → List Char → Option (List Char)
  | _, [] => some []
  | count, c :: rest =>
    if count = 0 then some []
    else if c.utf8Size ≤ count then (takeBytes? (count - c.utf8Size) rest).map (c :: ·)
    else none

namespace Fingerprint

/-- The fingerprint of a compilation. -/
def compute (source : String) (mode : MemoryMode) (args : List String) : Fingerprint :=
  ⟨sha256 (digestInput source mode args)⟩

/-- The first twelve bytes, unless the cut splits a character. A computed fingerprint has no
characters of more than one byte; one that was read from a bundle may hold any text. -/
def short? (f : Fingerprint) : Option String :=
  (takeBytes? 12 f.text.toList).map String.ofList

end Fingerprint

end DspHost
