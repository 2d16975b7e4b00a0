/-
What is asked of a library for TOML documents: the root table of a text, and a text for
a root table.
-/
import ControlPlane.Toml.Document

namespace ControlPlane.Toml

structure Library where
  /-- The entries of the root table of a document, if the text is one. -/
  read : String → Option (List (String × Value))
  /-- A document whose root table has some entries, if there is one. -/
  write : List (String × Value) → Option String

/-- The library that the program uses. -/
def Library.standard : Library where
  read := Document.ofText
  write entries := some (Document.toText entries)

end ControlPlane.Toml
