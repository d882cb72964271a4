import DspHost.Cache.Bundle
import DspHost.Cache.Error
import DspHost.Cache.Request
import DspHost.Cache.Toolchain
import DspHost.Notice

/-!
# The module cache

Modules are kept by the fingerprint of their compilation, so that a repeated request costs nothing.
With a module its effect is built, if it can be; effects are kept by fingerprints of their own and
are shared. Modules leave the cache only when they are evicted, and take their effects with them.

A request that fails leaves no module behind. A failing effect only costs the effect.

## Main definitions

* `ToolCall` — a call of the compiler or the loader
* `ModuleCache` — the modules and effects
* `ModuleCache.getOrCompile` — the module of a request
* `ModuleCache.evict`, `ModuleCache.clear` — drops modules
* `ModuleCache.exportBundle?`, `ModuleCache.importBundle` — modules as bundles
-/

namespace DspHost

/-- A call of the compiler or the loader. -/
inductive ToolCall where
  /-- The compiler was called. -/
  | compile (name : String) (args : List String) (mode : MemoryMode)
  /-- The loader was called. -/
  | load (binary : List UInt8)
  deriving DecidableEq, Repr

/-- Builds a module from an artifact. -/
def Artifact.build (a : Artifact) (tools : Toolchain) (serial : Nat) :
    Except CompileError PlainModule := do
  let kernel ← (tools.load a.binary).mapError .load
  (PlainModule.ofParts a.name a.fingerprint a.source a.binary a.description kernel serial).mapError
    .metadata

/-- Compiles a request to an artifact. -/
def CompileRequest.compile (r : CompileRequest) (tools : Toolchain) :
    Except CompileError Artifact := do
  let output ← (tools.compile r.name r.source r.argv r.mode).mapError .compiler
  return ⟨r.fingerprint, r.name, output.binary, r.source, output.description⟩

/-- The modules and effects that are kept, and what was done to get them. -/
structure ModuleCache where
  /-- The modules by fingerprint. -/
  entries : List (Fingerprint × CompiledModule)
  /-- The effects by fingerprint. -/
  effects : List (Fingerprint × PlainModule)
  /-- Requests whose module was kept. -/
  hits : Nat
  /-- Requests whose module was not kept. -/
  misses : Nat
  /-- How many modules were built. -/
  built : Nat
  /-- The calls of compiler and loader, in order. -/
  calls : List ToolCall

namespace ModuleCache

/-- A cache without modules. -/
def empty : ModuleCache := ⟨[], [], 0, 0, 0, []⟩

/-- The module with a fingerprint. -/
def get? (c : ModuleCache) (fingerprint : Fingerprint) : Option CompiledModule :=
  c.entries.lookup fingerprint

/-- Whether there is a module with a fingerprint. -/
def contains (c : ModuleCache) (fingerprint : Fingerprint) : Bool := (c.get? fingerprint).isSome

/-- The effect with a fingerprint. -/
def effect? (c : ModuleCache) (fingerprint : Fingerprint) : Option PlainModule :=
  c.effects.lookup fingerprint

/-- The number of modules. -/
def size (c : ModuleCache) : Nat := c.entries.length

/-- Notes a call. -/
def note (c : ModuleCache) (call : ToolCall) : ModuleCache := { c with calls := c.calls ++ [call] }

/-- Keeps a module. -/
def keep (c : ModuleCache) (m : CompiledModule) : ModuleCache :=
  { c with entries := (m.fingerprint, m) :: c.entries }

/-- Keeps an effect. -/
def keepEffect (c : ModuleCache) (effect : PlainModule) : ModuleCache :=
  { c with effects := (effect.fingerprint, effect) :: c.effects }

/-- Builds a module from an artifact. -/
def build (c : ModuleCache) (tools : Toolchain) (a : Artifact) :
    Except CompileError PlainModule × ModuleCache :=
  let called := c.note (.load a.binary)
  match a.build tools c.built with
  | .error error => (.error error, called)
  | .ok m => (.ok m, { called with built := c.built + 1 })

/-- Compiles and builds a module. -/
def compile (c : ModuleCache) (tools : Toolchain) (r : CompileRequest) :
    Except CompileError PlainModule × ModuleCache :=
  let called := c.note (.compile r.name r.argv r.mode)
  match r.compile tools with
  | .error error => (.error error, called)
  | .ok a => called.build tools a

/-- The effect of a request, unless it cannot be built. -/
def compileEffect (c : ModuleCache) (tools : Toolchain) (r : CompileRequest) :
    Noted (Option PlainModule × ModuleCache) :=
  match c.effect? r.effectCompanion.fingerprint with
  | some effect => return (some effect, c)
  | none =>
    match c.compile tools r.effectCompanion with
    | (.ok effect, c) => return (some effect, c.keepEffect effect)
    | (.error error, c) => do
      Noted.note (.missingEffect r.name error)
      return (none, c)

/-- Compiles a request that has no module, together with its effect. -/
def compileWhole (c : ModuleCache) (tools : Toolchain) (r : CompileRequest) :
    Noted (Except CompileError CompiledModule × ModuleCache) :=
  match c.compile tools r with
  | (.error error, c) => return (.error error, c)
  | (.ok plain, c) => do
    -- The module is kept only when the attempt at its effect is over.
    let (effect, c) ← c.compileEffect tools r
    Noted.note (.compiled r.name r.fingerprint plain.binary.length effect.isSome)
    let m : CompiledModule := ⟨plain, effect⟩
    return (.ok m, c.keep m)

/-- The module of a request. -/
def getOrCompile (c : ModuleCache) (tools : Toolchain) (r : CompileRequest) :
    Noted (Except CompileError CompiledModule × ModuleCache) :=
  match c.get? r.fingerprint with
  | some m => do
    Noted.note (.cacheHit r.name r.fingerprint)
    return (.ok m, { c with hits := c.hits + 1 })
  | none => compileWhole { c with misses := c.misses + 1 } tools r

/-- Drops the effect with a fingerprint. -/
def dropEffect (c : ModuleCache) (effect : Option PlainModule) : ModuleCache :=
  match effect with
  | some effect => { c with effects := c.effects.filter fun e => e.1 != effect.fingerprint }
  | none => c

/-- Drops a module and its effect. -/
def evict (c : ModuleCache) (fingerprint : Fingerprint) :
    Noted (Option CompiledModule × ModuleCache) :=
  match c.get? fingerprint with
  | none => return (none, c)
  | some m => do
    -- The effect goes as well, although another module may share it.
    Noted.note (.evicted m.name fingerprint)
    let c := { c with entries := c.entries.filter fun e => e.1 != fingerprint }
    return (some m, c.dropEffect m.effect)

/-- Drops every module and every effect. -/
def clear (c : ModuleCache) : ModuleCache := { c with entries := [], effects := [] }

/-- The bundle of a module. -/
def exportBundle? (c : ModuleCache) (fingerprint : Fingerprint) : Option Bundle :=
  (c.get? fingerprint).map Bundle.ofModule

/-- The effect in a bundle, unless it cannot be built. -/
def importEffect (c : ModuleCache) (tools : Toolchain) (a : Artifact) :
    Noted (Option PlainModule × ModuleCache) :=
  match c.effect? a.fingerprint with
  | some effect => return (some effect, c)
  | none =>
    match c.build tools a with
    | (.ok effect, c) => return (some effect, c.keepEffect effect)
    | (.error error, c) => do
      Noted.note (.droppedEffect error)
      return (none, c)

/-- The effect of a bundle, if it has one that can be built. -/
def importEffectOf (c : ModuleCache) (tools : Toolchain) (bundle : Bundle) :
    Noted (Option PlainModule × ModuleCache) :=
  match bundle.effect? with
  | some effect => c.importEffect tools effect.artifact
  | none => return (none, c)

/-- The module of a bundle, built without the compiler; a module with the same fingerprint stays. -/
def importBundle (c : ModuleCache) (tools : Toolchain) (bundle : Bundle) :
    Noted (Except CompileError CompiledModule × ModuleCache) :=
  match c.get? bundle.artifact.fingerprint with
  | some m => return (.ok m, c)
  | none =>
    match c.build tools bundle.artifact with
    | (.error error, c) => return (.error error, c)
    | (.ok plain, c) => do
      let (effect, c) ← c.importEffectOf tools bundle
      let m : CompiledModule := ⟨plain, effect⟩
      Noted.note (.imported m.name m.fingerprint)
      return (.ok m, c.keep m)

end ModuleCache

end DspHost
