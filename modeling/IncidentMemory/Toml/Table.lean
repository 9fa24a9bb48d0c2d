import IncidentMemory.Document.Basic

/-!
# Tables of a TOML text

A TOML text builds its tables piece by piece: a header opens a table, a dotted key reaches into one.
No table may be defined twice, and which later pieces may add to it depends on how it came about, so
a table remembers that until the text is complete.
-/

namespace IncidentMemory.Toml

/-- How a table came about. -/
inductive Origin where
  /-- By a header of its own, or by braces. -/
  | header
  /-- As a part of another table's header. -/
  | path
  /-- As a part of a dotted key. -/
  | dotted
  deriving DecidableEq

/-- A value under construction. -/
inductive Node where
  /-- A value that is complete. -/
  | value (d : Document)
  /-- A table. -/
  | table (origin : Origin) (entries : List (String × Node))
  /-- An array of tables, the last one first. -/
  | tables (rows : List (List (String × Node)))

/-- The entries of a table. -/
abbrev Entries := List (String × Node)

/-- Replaces the node of a key, or adds it at the end. -/
def Entries.set (es : Entries) (key : String) (node : Node) : Entries :=
  if es.any (·.1 == key) then es.map fun e => if e.1 == key then (key, node) else e
  else es ++ [(key, node)]

/-- Adds a new key; refused if there is one. -/
def Entries.add? (es : Entries) (key : String) (node : Node) : Option Entries :=
  if es.any (·.1 == key) then none else some (es ++ [(key, node)])

/-- **Sets the value of a key, dotted or not.** The tables on the way may only be such as dotted
keys have made. -/
def Entries.assign (d : Node) : List String → Entries → Option Entries
  | [], _ => none
  | [key], es => es.add? key d
  | key :: more, es =>
    match es.lookup key with
    | none => do
      let inner ← Entries.assign d more []
      some (es.set key (.table .dotted inner))
    | some (.table .dotted inner) => do
      let inner ← Entries.assign d more inner
      some (es.set key (.table .dotted inner))
    | some (.table .path inner) =>
      -- a header may come between, as long as a dotted key has made the innermost table
      if more.length ≤ 1 then none
      else do
        let inner ← Entries.assign d more inner
        some (es.set key (.table .path inner))
    | some _ => none

/-- Changes the entries at the end of a header's path, making tables on the way where there are
none. A path through an array of tables leads into its last one. -/
def Entries.within (change : Entries → Option Entries) : List String → Entries → Option Entries
  | [], es => change es
  | key :: more, es =>
    match es.lookup key with
    | none => do
      let inner ← Entries.within change more []
      some (es.set key (.table .path inner))
    | some (.table origin inner) => do
      let inner ← Entries.within change more inner
      some (es.set key (.table origin inner))
    | some (.tables (last :: before)) => do
      let last ← Entries.within change more last
      some (es.set key (.tables (last :: before)))
    | some _ => none

/-- **Opens a table by its header.** Only a table that so far is a mere part of other headers may be
there already. -/
def Entries.openTable (path : List String) (es : Entries) : Option Entries :=
  match path.reverse with
  | [] => none
  | key :: parents =>
    es.within (fun inner =>
      match inner.lookup key with
      | none => some (inner.set key (.table .header []))
      | some (.table .path entries) => some (inner.set key (.table .header entries))
      | some _ => none) parents.reverse

/-- **Opens the next table of an array of tables.** -/
def Entries.openRow (path : List String) (es : Entries) : Option Entries :=
  match path.reverse with
  | [] => none
  | key :: parents =>
    es.within (fun inner =>
      match inner.lookup key with
      | none => some (inner.set key (.tables [[]]))
      | some (.tables rows) => some (inner.set key (.tables ([] :: rows)))
      | some _ => none) parents.reverse

mutual

/-- The document of a node. -/
def Node.document : Node → Document
  | .value d => d
  | .table _ entries => .map (entriesDocument entries) true
  | .tables rows => .seq (rowsDocument rows).reverse true

/-- The document's entries. -/
def entriesDocument : List (String × Node) → List (String × Document)
  | [] => []
  | (k, n) :: es => (k, n.document) :: entriesDocument es

/-- The documents of an array's tables. -/
def rowsDocument : List (List (String × Node)) → List Document
  | [] => []
  | r :: rs => .map (entriesDocument r) true :: rowsDocument rs

end

end IncidentMemory.Toml
