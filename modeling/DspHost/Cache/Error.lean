import DspHost.Metadata.Validation

/-!
# Failed compilations

## Main definitions

* `CompileError` — why a module could not be built
-/

namespace DspHost

/-- Why a module could not be built. -/
inductive CompileError where
  /-- The compiler rejected the program. -/
  | compiler (reason : String)
  /-- The description of the binary is not accepted. -/
  | metadata (error : MetadataError)
  /-- The binary could not be loaded. -/
  | load (reason : String)
  deriving DecidableEq, Repr

/-- The message of a compile error. -/
def CompileError.message : CompileError → String
  | compiler reason => s!"compilation failed: {reason}"
  | metadata error => error.message
  | load reason => s!"could not load module: {reason}"

end DspHost
