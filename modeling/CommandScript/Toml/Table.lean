import CommandScript.Toml

/-!
# Building tables

While a TOML document is read its tables are `Node`s, which remember how each table came about:
by a header of its own, by a header of a table inside it, or by a dotted key. That decides what
may still be added. No value is ever replaced (`insert?`), a table has one header only
(`openTable?`), and a dotted key adds to nothing but what dotted keys made. An array of tables
takes new entries in its last table.
-/

namespace CommandScript

namespace Toml

/-- How a table came about. -/
inductive Origin
  /-- By its own header. -/
  | header
  /-- By the header of a table inside it. -/
  | implied
  /-- By a dotted key. -/
  | dotted
  deriving DecidableEq, Repr

/-- A part of a document that is being read. -/
inductive Node
  /-- A value that is complete. -/
  | value (v : Toml)
  /-- A table. -/
  | table (origin : Origin) (entries : List (String × Node))
  /-- An array of tables that headers made, the last table first. -/
  | tables (items : List (List (String × Node)))
  deriving Repr

/-- The entries of a table that is being read. -/
abbrev Entries := List (String × Node)

mutual

/-- The value that a part of a document has become. -/
def Node.toToml : Node → Toml
  | .value v => v
  | .table _ entries => .table (entriesToToml entries)
  | .tables items => .array (tablesToToml items).reverse

/-- The entries that a table has got. -/
def entriesToToml : List (String × Node) → List (String × Toml)
  | [] => []
  | (k, n) :: es => (k, n.toToml) :: entriesToToml es

/-- The tables that an array has got. -/
def tablesToToml : List (List (String × Node)) → List Toml
  | [] => []
  | t :: ts => .table (entriesToToml t) :: tablesToToml ts

end

/-- Entries with a key set to a node. -/
def setEntry (key : String) (n : Node) : Entries → Entries
  | [] => [(key, n)]
  | (k, m) :: es => if k = key then (key, n) :: es else (k, m) :: setEntry key n es

/-- Entries with a value added at a dotted key, which is `path` and then `key`. -/
def insert? (key : String) (v : Toml) : List String → Entries → Option Entries
  | [], es =>
    match es.lookup key with
    | none => some (es ++ [(key, .value v)])
    | some _ => none
  | p :: path, es =>
    match es.lookup p with
    | none => (insert? key v path []).map fun inner => es ++ [(p, .table .dotted inner)]
    | some (.table origin inner) =>
      if origin = .dotted ∨ (origin = .implied ∧ path ≠ []) then
        (insert? key v path inner).map fun inner' => setEntry p (.table origin inner') es
      else none
    | some (.tables (t :: ts)) =>
      if path = [] then none
      else (insert? key v path t).map fun t' => setEntry p (.tables (t' :: ts)) es
    | some _ => none

/-- Change the entries of the table at a path, through the last table of each array of tables.
Tables that are missing on the way are implied. -/
def update? (change : Entries → Option Entries) : List String → Entries → Option Entries
  | [], es => change es
  | p :: path, es =>
    match es.lookup p with
    | none => (update? change path []).map fun inner => es ++ [(p, .table .implied inner)]
    | some (.table origin inner) =>
      (update? change path inner).map fun inner' => setEntry p (.table origin inner') es
    | some (.tables (t :: ts)) =>
      (update? change path t).map fun t' => setEntry p (.tables (t' :: ts)) es
    | some _ => none

/-- Give a table its header and fill it. A table that was implied so far keeps what it holds. -/
def openTable? (fill : Entries → Option Entries) (key : String) (es : Entries) :
    Option Entries :=
  match es.lookup key with
  | none => (fill []).map fun inner => es ++ [(key, .table .header inner)]
  | some (.table .implied inner) =>
    (fill inner).map fun inner' => setEntry key (.table .header inner') es
  | some _ => none

/-- Add a table to an array of tables and fill it. -/
def addTable? (fill : Entries → Option Entries) (key : String) (es : Entries) :
    Option Entries :=
  match es.lookup key with
  | none => (fill []).map fun t => es ++ [(key, .tables [t])]
  | some (.tables ts) => (fill []).map fun t => setEntry key (.tables (t :: ts)) es
  | some _ => none

end Toml

end CommandScript
