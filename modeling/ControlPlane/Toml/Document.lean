/-
What the statements of a TOML document amount to, and the statements that a document is
written as.

Tables that stand in the root table, alone or several under one key, get headers. Tables
further inside are written on one line.
-/
import ControlPlane.Toml.Statement

namespace ControlPlane.Toml

namespace Document

/-! ## Reading -/

/-- A document in the making: what there is so far, and the keys of the table that
settings are about. -/
structure Draft where
  entries : Node.Entries
  here : List String

def Draft.empty : Draft := ⟨[], []⟩

/-- The document with one more statement, unless it contradicts those before. -/
def Draft.add (d : Draft) : Statement → Option Draft
  | .table p => (Node.openTable p.outer p.key d.entries).map (⟨·, p.keys⟩)
  | .element p => (Node.addElement p.outer p.key d.entries).map (⟨·, p.keys⟩)
  | .setting p v =>
    (Node.within false (fun _ => Node.assign p.outer p.key v) d.here .explicit d.entries).map (⟨·, d.here⟩)

/-- The entries of the root table that statements amount to. -/
def ofStatements (ss : List Statement) : Option (List (String × Value)) :=
  (ss.foldlM Draft.add Draft.empty).map fun d => Node.valuesOf d.entries

/-- The entries of the root table of a document. -/
def ofText (text : String) : Option (List (String × Value)) := (Statement.ofText text).bind ofStatements

/-! ## Writing -/

/-- Settings of the table at hand. -/
def settings (kvs : List (String × Value)) : List Statement := kvs.map fun e => .setting (.ofKey e.1) e.2

/-- The statements of a table under a header. -/
def headed (t : String) (kvs : List (String × Value)) : List Statement := .table (.ofKey t) :: settings kvs

/-- The statements of a table under a header in double brackets. -/
def listed (t : String) (kvs : List (String × Value)) : List Statement := .element (.ofKey t) :: settings kvs

/-- The tables that some values are, if they are tables. -/
def tables? : List Value → Option (List (List (String × Value)))
  | [] => some []
  | .table kvs :: vs => (tables? vs).map (kvs :: ·)
  | _ :: _ => none

/-- The statements of what gets headers: a table, or tables under one key. -/
def sections? : String × Value → Option (List Statement)
  | (t, .table kvs) => some (headed t kvs)
  | (t, .array (v :: vs)) => (tables? (v :: vs)).map fun tables => tables.flatMap (listed t)
  | _ => none

/-- The statements of a document. What gets no header has to stand before all headers. -/
def statements (entries : List (String × Value)) : List Statement :=
  settings (entries.filter fun e => (sections? e).isNone) ++ (entries.filterMap sections?).flatten

/-- The text of the document whose root table has some entries. -/
def toText (entries : List (String × Value)) : String := Statement.text (statements entries)

end Document

end ControlPlane.Toml
