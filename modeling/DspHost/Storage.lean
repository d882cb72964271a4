/-!
# Stored files

Reading and writing files is up to the outermost layer; what it finds is handed in as a value. A
folder that nobody else changes is a value itself. It and the folders around it hold files and no
further folders by name, so only points lead from one to another. Of several reasons why a path
leads nowhere the first one on the way counts.

## Main definitions

* `FileError` — why a file could not be read or written
* `FileContents` — what was found under a name
* `FileContents.text` — the text of a file
* `Folder`, `Folder.read`, `Folder.write` — a folder as a value

## Main results

* `Folder.read_write` — what was written under a path is read under it
-/

namespace DspHost

/-- Why a file could not be read or written. -/
inductive FileError where
  /-- There is no file with this name. -/
  | notFound
  /-- The name belongs to a directory. -/
  | isDirectory
  /-- The path goes on behind the name of a file. -/
  | notDirectory
  /-- The path, or a name in it, is too long. -/
  | nameTooLong
  /-- The path holds the character that ends names. -/
  | endsEarly
  /-- The bytes are no text. -/
  | notText
  deriving DecidableEq, Repr

/-- The message of a file error. -/
def FileError.message : FileError → String
  | notFound => "No such file or directory (os error 2)"
  | isDirectory => "Is a directory (os error 21)"
  | notDirectory => "Not a directory (os error 20)"
  | nameTooLong => "File name too long (os error 36)"
  | endsEarly => "file name contained an unexpected NUL byte"
  | notText => "stream did not contain valid UTF-8"

/-- The message of a file error, with the name of the file. -/
def FileError.messageFor (e : FileError) (name : String) : String := s!"{name}: {e.message}"

/-- What was found under a name. -/
abbrev FileContents := Except FileError (List UInt8)

/-- The text that bytes encode. -/
def decodeText? (bytes : List UInt8) : Option String := String.fromUTF8? ⟨bytes.toArray⟩

/-- The text of a file. -/
def FileContents.text (contents : FileContents) : Except FileError String :=
  match contents with
  | .error error => .error error
  | .ok bytes =>
    match decodeText? bytes with
    | some text => .ok text
    | none => .error .notText

/-! ### Folders -/

/-- Where a file is. -/
structure FilePlace where
  /-- How many folders lie between its folder and the current one, which is inside it. -/
  above : Nat
  /-- Its name. -/
  name : String
  deriving DecidableEq, Repr

/-- The current folder and the folders around it. -/
structure Folder where
  /-- The files by place, the latest first. -/
  files : List (FilePlace × List UInt8)
  deriving DecidableEq, Repr

namespace Folder

/-- A folder without files. -/
def empty : Folder := ⟨[]⟩

/-- How many bytes a name can have. -/
def longestName : Nat := 255

/-- How many bytes a path can have. -/
def longestPath : Nat := 4095

/-- Whether a name means a folder wherever it stands: a point the folder itself, two points the
folder around it. -/
def isFolderName (name : String) : Bool := name == "." || name == ".."

/-- The bytes of the file at a place. -/
def find (f : Folder) (place : FilePlace) : FileContents :=
  if longestName < place.name.utf8ByteSize then .error .nameTooLong
  else
    match f.files.lookup place with
    | some bytes => .ok bytes
    | none => .error .notFound

/-- The folder that a name leads to. -/
def enter (f : Folder) (above : Nat) (name : String) : Except FileError Nat :=
  if name = "." then .ok above
  else if name = ".." then .ok (above + 1)
  else
    match f.find ⟨above, name⟩ with
    | .ok _ => .error .notDirectory
    | .error error => .error error

/-- The place that the last of several names means, where the others lead from folder to folder. -/
def follow (f : Folder) (above : Nat) : List String → Except FileError FilePlace
  | [] => .ok ⟨above, "."⟩
  | [name] => .ok ⟨above, name⟩
  | name :: names => do f.follow (← f.enter above name) names

/-- The names in a path. Empty names between slashes stay where they are. -/
def pathNames (path : String) : Except FileError (List String) :=
  if path.toList.contains '\x00' then .error .endsEarly
  else if longestPath < path.utf8ByteSize then .error .nameTooLong
  else if path = "" then .error .notFound
  else .ok ((path.splitOn "/").filter (· ≠ ""))

/-- The place that a path means. -/
def resolve (f : Folder) (path : String) : Except FileError FilePlace := do
  f.follow 0 (← pathNames path)

/-- Whether a path asks for a folder by a slash at its end. -/
def asksFolder (path : String) : Bool := path.toList.getLast? == some '/'

/-- What a path leads to. -/
def read (f : Folder) (path : String) : FileContents := do
  let place ← f.resolve path
  if isFolderName place.name then .error .isDirectory
  else
    let bytes ← f.find place
    if asksFolder path then .error .notDirectory else .ok bytes

/-- The folder with a file. Whether the path asks for a folder is looked at before its last name. -/
def write (f : Folder) (path : String) (bytes : List UInt8) : Except FileError Folder := do
  let place ← f.resolve path
  if isFolderName place.name || asksFolder path then .error .isDirectory
  else if longestName < place.name.utf8ByteSize then .error .nameTooLong
  else .ok ⟨(place, bytes) :: f.files⟩

/-! ### Reading what was written -/

/-- Only points lead to a folder, whatever files there are. -/
theorem enter_eq_ok_iff {f : Folder} {above result : Nat} {name : String} :
    f.enter above name = .ok result
      ↔ name = "." ∧ result = above ∨ name = ".." ∧ result = above + 1 := by
  unfold enter
  split
  · simp_all [eq_comm]
  · split
    · simp_all [eq_comm]
    · split <;> simp_all

/-- Where a path leads does not depend on the files, once it leads somewhere. -/
theorem follow_congr {f g : Folder} {above : Nat} {names : List String} {place : FilePlace}
    (h : f.follow above names = .ok place) : g.follow above names = .ok place := by
  fun_induction f.follow above names with
  | case1 => simpa [follow] using h
  | case2 => simpa [follow] using h
  | case3 above name names more ih =>
    cases entered : f.enter above name with
    | error e => simp [entered, bind, Except.bind] at h
    | ok inner =>
      have entered' : g.enter above name = .ok inner :=
        enter_eq_ok_iff.2 (enter_eq_ok_iff.1 entered)
      rw [follow, entered']
      · exact ih inner (by simpa [entered, bind, Except.bind] using h)
      · exact more

theorem resolve_congr {f g : Folder} {path : String} {place : FilePlace}
    (h : f.resolve path = .ok place) : g.resolve path = .ok place := by
  unfold resolve at h ⊢
  cases named : pathNames path with
  | error e => simp [named, bind, Except.bind] at h
  | ok names => exact follow_congr (by simpa [named, bind, Except.bind] using h)

/-- What was written under a path is read under it. -/
theorem read_write {f g : Folder} {path : String} {bytes : List UInt8}
    (h : f.write path bytes = .ok g) : g.read path = .ok bytes := by
  cases resolved : f.resolve path with
  | error e => simp [write, resolved, bind, Except.bind] at h
  | ok place =>
    simp only [write, resolved, bind, Except.bind] at h
    split at h
    · simp at h
    · rename_i file
      split at h
      · simp at h
      · rename_i fits
        obtain rfl := Except.ok.inj h
        obtain ⟨named, bare⟩ : isFolderName place.name = false ∧ asksFolder path = false := by
          simpa using file
        simp [read, resolve_congr resolved, find, named, bare, fits, bind, Except.bind]

end Folder

end DspHost
