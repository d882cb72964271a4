import DspHost.Cache.Fingerprint
import DspHost.Json.Decode
import DspHost.Json.Writer
import DspHost.Module
import DspHost.Storage

/-!
# Bundles

A bundle carries what a module is built from when there is no compiler at hand: its artifact, and
the bundle of its effect if it has one. In a document the effect is left out, or null, if there is
none.

## Main definitions

* `Artifact` — what a module is built from
* `Bundle` — an artifact with the bundle of its effect
* `Bundle.ofModule` — the bundle of a module
* `Bundle.toJson`, `Bundle.parse` — bundles as documents
* `Bundle.readFrom`, `Bundle.writeTo` — bundles in files
-/

namespace DspHost

/-- What a module is built from when there is no compiler at hand. -/
structure Artifact where
  /-- The identity of the compilation. -/
  fingerprint : Fingerprint
  /-- The class name. -/
  name : String
  /-- The binary. -/
  binary : List UInt8
  /-- The source it was compiled from. -/
  source : String
  /-- The text of the description. -/
  description : String
  deriving DecidableEq, Repr, Inhabited

/-- What a module was built from. -/
def PlainModule.artifact (m : PlainModule) : Artifact :=
  ⟨m.fingerprint, m.name, m.binary, m.source, m.description⟩

/-- A portable module. -/
inductive Bundle where
  /-- A module without an effect. -/
  | alone (artifact : Artifact)
  /-- A module with an effect. -/
  | withEffect (artifact : Artifact) (effect : Bundle)
  deriving DecidableEq, Repr

/-- Why a bundle could not be read or written. -/
inductive BundleError where
  /-- The file could not be read or written. -/
  | file (name : String) (error : FileError)
  /-- The document is not a bundle. -/
  | format
  deriving DecidableEq, Repr

/-- The message of a bundle error, up to the reason why a document is not a bundle. -/
def BundleError.message : BundleError → String
  | file name error => s!"bundle I/O failed: {error.messageFor name}"
  | format => "malformed bundle"

namespace Bundle

/-- What the module is built from. -/
def artifact : Bundle → Artifact
  | alone artifact => artifact
  | withEffect artifact _ => artifact

/-- The bundle of the effect. -/
def effect? : Bundle → Option Bundle
  | alone _ => none
  | withEffect _ effect => some effect

/-- A bundle with an optional effect. -/
def ofParts (artifact : Artifact) : Option Bundle → Bundle
  | none => alone artifact
  | some effect => withEffect artifact effect

/-- The bundle of a module. -/
def ofModule (m : CompiledModule) : Bundle :=
  ofParts m.artifact (m.effect.map fun effect => alone effect.artifact)

/-! ### Documents -/

/-- The members of an artifact. -/
def artifactMembers (a : Artifact) : List (String × Json) :=
  [("fingerprint", .ofString a.fingerprint.text), ("name", .ofString a.name),
    ("binary", .array (a.binary.map fun b => .ofNat b.toNat)), ("source", .ofString a.source),
    ("metadata", .ofString a.description)]

/-- The document of a bundle. -/
def toJson : Bundle → Json
  | alone a => .ofMembers (artifactMembers a)
  | withEffect a effect => .ofMembers (artifactMembers a ++ [("effect", effect.toJson)])

/-- The bytes of a binary. -/
def bytes? (document : Json) : Option (List UInt8) :=
  document.list? fun item => (item.wholeBelow? 256).map Nat.toUInt8

/-- The bundle that a document holds, where `room` more containers may be open. The binary is a
container inside the one of the bundle. -/
def read? : Nat → Json → Option Bundle
  | 0, _ => none
  | 1, _ => none
  | room + 2, document => do
    match ← document.fields? ["fingerprint", "name", "binary", "source", "metadata", "effect"] with
    | [some fingerprint, some name, some binary, some source, some description, effect] =>
      let artifact : Artifact :=
        ⟨⟨← fingerprint.string?⟩, ← name.string?, ← bytes? binary, ← source.string?,
          ← description.string?⟩
      -- A missing effect and a null one mean the same.
      match effect with
      | none => return alone artifact
      | some .null => return alone artifact
      | some effect => return withEffect artifact (← read? (room + 1) effect)
    | _ => none

/-- The bundle that a text spells. -/
def parse (text : String) : Except BundleError Bundle :=
  match (Json.parse? text).bind (read? Json.deepest) with
  | some bundle => .ok bundle
  | none => .error .format

/-- The bundle in what was found under a name. -/
def ofFile (name : String) (contents : FileContents) : Except BundleError Bundle :=
  match contents.text with
  | .error error => .error (.file name error)
  | .ok text => parse text

/-- The bytes that are stored for a bundle. -/
def stored (b : Bundle) : List UInt8 := b.toJson.toText.toUTF8.toList

/-- Reads the bundle in a file of a folder. -/
def readFrom (folder : Folder) (name : String) : Except BundleError Bundle :=
  ofFile name (folder.read name)

/-- Stores a bundle in a file of a folder. -/
def writeTo (b : Bundle) (folder : Folder) (name : String) : Except BundleError Folder :=
  (folder.write name b.stored).mapError (.file name)

@[simp] theorem artifact_ofParts (artifact : Artifact) (effect : Option Bundle) :
    (ofParts artifact effect).artifact = artifact := by
  cases effect <;> rfl

@[simp] theorem effect?_ofParts (artifact : Artifact) (effect : Option Bundle) :
    (ofParts artifact effect).effect? = effect := by
  cases effect <;> rfl

end Bundle

end DspHost
