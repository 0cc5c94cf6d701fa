import SiteAtlas.Config.Toml.Value

/-!
How the tables of a document are put together. A table is defined once, by a header or by keys with
dots; a header may pass through tables of either kind, and keys with dots only through tables that
came about in the same way.
-/
namespace SiteAtlas.Toml

inductive Statement where
  | table (path : List String)
  | element (path : List String)
  | assign (path : List String) (value : Toml)

/-- Change the table that a header's key leads to. -/
def stepInto (key : String) (change : Members → Option Members) (ms : Members) : Option Members :=
  match entryAt? key ms with
  | some (.table .inline _) => none
  | some (.table origin sub) => do return putEntry key (.table origin (← change sub)) ms
  | some (.tables (last :: earlier)) => do
    return putEntry key (.tables ((← change last) :: earlier)) ms
  | none => do return putEntry key (.table .implied (← change [])) ms
  | _ => none

/-- Define a table by its header. -/
def declare : List String → Members → Option Members
  | [], _ => none
  | [key], ms =>
    match entryAt? key ms with
    | none => some (putEntry key (.table .header []) ms)
    | some (.table .implied sub) => some (putEntry key (.table .header sub) ms)
    | some _ => none
  | key :: path, ms => stepInto key (declare path) ms

def declareElement : List String → Members → Option Members
  | [], _ => none
  | [key], ms =>
    match entryAt? key ms with
    | none => some (putEntry key (.tables [[]]) ms)
    | some (.tables elements) => some (putEntry key (.tables ([] :: elements)) ms)
    | some _ => none
  | key :: path, ms => stepInto key (declareElement path) ms

/-- Set a value under a key with dots, which must be new. -/
def assign (value : Toml) : List String → Members → Option Members
  | [], _ => none
  | [key], ms =>
    match entryAt? key ms with
    | none => some (putEntry key value ms)
    | some _ => none
  | key :: path, ms =>
    match entryAt? key ms with
    | none => do return putEntry key (.table .dotted (← assign value path [])) ms
    | some (.table origin sub) =>
      if origin = .dotted ∨ (origin = .implied ∧ 2 ≤ path.length) then do
        return putEntry key (.table origin (← assign value path sub)) ms
      else none
    | some _ => none

def within (change : Members → Option Members) : List String → Members → Option Members
  | [], ms => change ms
  | key :: path, ms => stepInto key (within change path) ms

/-- The document so far and the path of its current table. -/
structure Draft where
  root : Members
  current : List String

def Draft.add (d : Draft) : Statement → Option Draft
  | .table path => do return ⟨← declare path d.root, path⟩
  | .element path => do return ⟨← declareElement path d.root, path⟩
  | .assign path value => do return { d with root := ← within (assign value path) d.current d.root }

def ofStatements (statements : List Statement) : Option Members :=
  (statements.foldlM Draft.add ⟨[], []⟩).map Draft.root

/-- The members of a table between braces. -/
def ofAssignments (assignments : List (List String × Toml)) : Option Members :=
  assignments.foldlM (fun ms a => assign a.2 a.1 ms) []

end SiteAtlas.Toml
