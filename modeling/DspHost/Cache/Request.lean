import DspHost.Cache.Fingerprint

/-!
# Compile requests

## Main definitions

* `CompileRequest` — a program to be compiled
* `CompileRequest.argv`, `CompileRequest.fingerprint` — the arguments, and the identity
* `effectSource`, `CompileRequest.effectCompanion` — the effect that a program defines
-/

namespace DspHost

/-- A program to be compiled. -/
structure CompileRequest where
  /-- The class name. -/
  name : String
  /-- The source. -/
  source : String
  /-- Arguments of the compiler. -/
  args : List String := []
  /-- Who allocates the module's memory. -/
  mode : MemoryMode := .external
  deriving DecidableEq, Repr, Inhabited

/-- The class name that effects are compiled under. -/
def effectClassName : String := "effect"

/-- Definitions that match the outputs of an instrument to the inputs of its effect. -/
def effectAdapter : String :=
  "adapt(1,1) = _;\n"
    ++ "adapt(2,2) = _,_;\n"
    ++ "adapt(1,2) = _ <: _,_;\n"
    ++ "adapt(2,1) = _,_ :> _;\n"
    ++ "adaptor(F,G) = adapt(outputs(F),inputs(G));\n"
    ++ "dsp_code = environment\x7b\n"

/-- The program that runs what a source defines as `effect`, fed through an adapter. -/
def effectSource (source : String) : String :=
  effectAdapter ++ source
    ++ "\n\x7d;\nprocess = adaptor(dsp_code.process, dsp_code.effect) : dsp_code.effect;\n"

namespace CompileRequest

/-- The arguments that the compiler is given, class name included. -/
def argv (r : CompileRequest) : List String := r.args ++ ["-cn", r.name]

/-- The identity of the compilation. -/
def fingerprint (r : CompileRequest) : Fingerprint := .compute r.source r.mode r.argv

/-- The request for the effect that the program defines. -/
def effectCompanion (r : CompileRequest) : CompileRequest :=
  ⟨effectClassName, effectSource r.source, r.args, r.mode⟩

end CompileRequest

end DspHost
