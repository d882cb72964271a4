import DspHost.Cache.Fingerprint
import DspHost.Module

/-!
# Compilers and loaders

A compiler turns a program into a binary and a description; a loader turns a binary into entry
points. Both are functions of what they are given.

## Main definitions

* `CompilerOutput` — a binary and its description
* `Toolchain` — a compiler and a loader
-/

namespace DspHost

/-- What a compiler makes of a program. -/
structure CompilerOutput where
  /-- The binary. -/
  binary : List UInt8
  /-- The text of its description. -/
  description : String
  deriving DecidableEq, Repr

/-- A compiler and a loader. -/
structure Toolchain where
  /-- Compiles a program: `compile name source arguments mode`. -/
  compile : String → String → List String → MemoryMode → Except String CompilerOutput
  /-- Loads a binary. -/
  load : List UInt8 → Except String Kernel

end DspHost
