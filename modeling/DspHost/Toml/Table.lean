import DspHost.Toml.Value

/-!
# Tables of a settings file

The statements of a file build one table. An entry goes into the table of the header above it; the
names in front of the last name of its key lead to tables inside that one, which are made where they
are missing. A table is written down once: a header may not repeat one, and dotted keys may add only
to tables that dotted keys made.

## Main definitions

* `Toml.Item`, `Toml.Members` — a table
* `Toml.Origin` — how a table came to be
* `Toml.Statement`, `Toml.Header` — the statements of a file
* `Toml.Members.add?` — a table with one more entry
* `Toml.Members.ofStatements?` — the table of a file

## Main results

* `Toml.Members.lookup_add?` — an entry with a single name is found under that name
-/

namespace DspHost.Toml

/-- How a table came to be. -/
inductive Origin where
  /-- It has a header of its own. -/
  | header
  /-- It is on the way to a table that has one. -/
  | passage
  /-- It is on the way to the last name of a dotted key. -/
  | dotted
  deriving DecidableEq, Repr

/-- What a name in a table stands for. -/
inductive Item where
  /-- A value. -/
  | value (value : Value)
  /-- A table. -/
  | table (origin : Origin) (members : List (String × Item))
  /-- A list of tables with headers of their own, the last one set apart. -/
  | tables (earlier : List (List (String × Item))) (last : List (String × Item))
  deriving Inhabited

/-- The items of a table by name. -/
abbrev Members := List (String × Item)

/-- A header: the entries below it go into the table that it names. -/
inductive Header where
  /-- A table. -/
  | table (key : Key)
  /-- One more table of a list. -/
  | element (key : Key)
  deriving DecidableEq, Repr

/-- A statement of a file. -/
inductive Statement where
  /-- An entry. -/
  | entry (entry : Entry)
  /-- A header. -/
  | header (header : Header)

namespace Members

/-- A table with what `change` makes of the item under a name, or of its absence. -/
def alter? (name : String) (change : Option Item → Option Item) : Members → Option Members
  | [] => (change none).map fun item => [(name, item)]
  | (other, item) :: rest =>
    if name = other then (change (some item)).map fun item => (other, item) :: rest
    else (alter? name change rest).map ((other, item) :: ·)

/-- A table with what `change` makes of the table that names lead to. Missing tables on the way are
made; the way leads through the last table of a list, never through a value, and for a dotted key
never through a table that has a header of its own. -/
def within? (made : Origin) (change : Origin → Members → Option Members) :
    List String → Origin → Members → Option Members
  | [], origin, members => change origin members
  | name :: names, _, members =>
    alter? name (fun
      | none => (within? made change names made []).map (.table made)
      | some (.value _) => none
      -- Dotted keys may not reach into what a header has written down.
      | some (.table origin inner) =>
        if made = .dotted ∧ origin = .header then none
        else (within? made change names origin inner).map (.table origin)
      | some (.tables earlier last) =>
        (within? made change names .header last).map (.tables earlier)) members

/-- A table with a new item. -/
def insertNew? (name : String) (item : Item) (members : Members) : Option Members :=
  alter? name (fun | none => some item | some _ => none) members

/-- A table with one more entry. -/
def add? (members : Members) (entry : Entry) : Option Members :=
  let (key, value) := entry
  within? .dotted (fun origin inner =>
    if key.parents ≠ [] ∧ origin ≠ .dotted then none
    else insertNew? key.name (.value value) inner) key.parents .header members

/-- A table with more entries. -/
def addAll? (members : Members) (entries : List Entry) : Option Members :=
  entries.foldlM add? members

/-- A table with a section: a header and the entries below it. A table that is only on the way to
others may still get its own header. -/
def addSection? (members : Members) (sect : Header × List Entry) : Option Members :=
  match sect with
  | (.table key, entries) =>
    within? .passage (fun _ inner => alter? key.name (fun
      | none => (addAll? [] entries).map (.table .header)
      -- The table was on the way to others so far, and gets its own header now.
      | some (.table .passage own) => (addAll? own entries).map (.table .header)
      | some _ => none) inner) key.parents .header members
  | (.element key, entries) =>
    within? .passage (fun _ inner => alter? key.name (fun
      | none => (addAll? [] entries).map (.tables [])
      | some (.tables earlier last) => (addAll? [] entries).map (.tables (earlier ++ [last]))
      | some _ => none) inner) key.parents .header members

end Members

/-- The entries above the first header, and the sections. -/
def sections : List Statement → List Entry × List (Header × List Entry)
  | [] => ([], [])
  | .entry entry :: rest =>
    let (entries, later) := sections rest
    (entry :: entries, later)
  | .header header :: rest =>
    let (entries, later) := sections rest
    ([], (header, entries) :: later)

/-- The table of a file. -/
def Members.ofStatements? (statements : List Statement) : Option Members := do
  let (entries, later) := sections statements
  later.foldlM addSection? (← addAll? [] entries)

/-! ### Looking entries up -/

namespace Members

theorem lookup_insertNew? {members members' : Members} {name : String} {item : Item}
    (h : members.insertNew? name item = some members') : members'.lookup name = some item := by
  induction members generalizing members' with
  | nil =>
    obtain rfl : [(name, item)] = members' := by simpa [insertNew?, alter?] using h
    exact List.lookup_cons_self
  | cons head rest ih =>
    obtain ⟨other, old⟩ := head
    by_cases hname : name = other
    · simp [insertNew?, alter?, hname] at h
    · obtain ⟨after, hafter, rfl⟩ : ∃ after, insertNew? name item rest = some after ∧
          (other, old) :: after = members' := by
        simpa [insertNew?, alter?, hname] using h
      have hne : (name == other) = false := by simpa using hname
      simpa [List.lookup_cons, hne] using ih hafter

/-- An entry with a single name is found under that name. -/
theorem lookup_add? {members members' : Members} {name : String} {value : Value}
    (h : members.add? (⟨[], name⟩, value) = some members') :
    members'.lookup name = some (.value value) :=
  lookup_insertNew? (by simpa [add?, within?] using h)

end Members

end DspHost.Toml
