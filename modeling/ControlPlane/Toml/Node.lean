/-
Tables as they are put together, statement by statement.

A table is named once by a header, or put together by dotted keys, or only implied
by the header of a table inside it. What was done one way cannot be added to in
another (`Node.within`, `Node.assign`, `Node.openTable`).
-/
import ControlPlane.Toml.Value

namespace ControlPlane.Toml

/-- How a table came about. -/
inductive Form where
  /-- By a header of its own. -/
  | explicit
  /-- By the header of a table inside it. -/
  | implied
  /-- By a dotted key. -/
  | dotted
  deriving DecidableEq, Repr

/-- What a key stands for while a document is put together. -/
inductive Node where
  | value (v : Value)
  | table (form : Form) (entries : List (String × Node))
  /-- The tables of one header in double brackets, each explicit. -/
  | tables (elements : List (List (String × Node)))

namespace Node

/-- The entries of a table, in order of appearance. -/
abbrev Entries := List (String × Node)

/-- Changes what a key stands for, or adds it at the end. -/
def alter (k : String) (f : Option Node → Option Node) : Entries → Option Entries
  | [] => (f none).map fun n => [(k, n)]
  | (k', n) :: rest =>
    if k' = k then (f (some n)).map fun n => (k', n) :: rest else (alter k f rest).map ((k', n) :: ·)

/-- Changes the last of some tables. -/
def changeLast (f : Entries → Option Entries) : List Entries → Option (List Entries)
  | [] => none
  | [es] => (f es).map ([·])
  | es :: rest => (changeLast f rest).map (es :: ·)

/-- Changes the table that a path leads to, of which the form is known. Tables on
the way come about as they are needed. A path of dotted keys does not lead through
explicit tables; of several tables under one key it is the last. -/
def within (dotted : Bool) (change : Form → Entries → Option Entries) :
    List String → Form → Entries → Option Entries
  | [], form, es => change form es
  | k :: path, _, es =>
    es |> alter k fun
      | none =>
        let form := if dotted then Form.dotted else .implied
        (within dotted change path form []).map (.table form)
      | some (.value _) => none
      | some (.table form es) =>
        if dotted && form == .explicit then none else (within dotted change path form es).map (.table form)
      | some (.tables ts) => (changeLast (within dotted change path .explicit) ts).map .tables

/-- Gives a new key a value. A dotted key adds to dotted tables only. -/
def assign (path : List String) (k : String) (v : Value) : Entries → Option Entries :=
  within true
    (fun form es =>
      if path.isEmpty || form == .dotted then
        es |> alter k fun
          | none => some (.value v)
          | some _ => none
      else none)
    path .explicit

/-- Names a table by a header, at most once. -/
def openTable (path : List String) (k : String) : Entries → Option Entries :=
  within false
    (fun _ => alter k fun
      | none => some (.table .explicit [])
      | some (.table .implied es) => some (.table .explicit es)
      | some _ => none)
    path .explicit

/-- Adds a table to those of a header in double brackets. -/
def addElement (path : List String) (k : String) : Entries → Option Entries :=
  within false
    (fun _ => alter k fun
      | none => some (.tables [[]])
      | some (.tables ts) => some (.tables (ts ++ [[]]))
      | some _ => none)
    path .explicit

mutual

/-- The value that a key stands for in the end. -/
def toValue : Node → Value
  | .value v => v
  | .table _ es => .table (valuesOf es)
  | .tables ts => .array (tablesOf ts)

/-- The entries of a table with their values. -/
def valuesOf : Entries → List (String × Value)
  | [] => []
  | (k, n) :: rest => (k, n.toValue) :: valuesOf rest

/-- Tables as values. -/
def tablesOf : List Entries → List Value
  | [] => []
  | es :: rest => .table (valuesOf es) :: tablesOf rest

end

end Node

end ControlPlane.Toml
