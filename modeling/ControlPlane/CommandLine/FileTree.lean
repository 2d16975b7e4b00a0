/-
Folders and files, and what a path leads to among them.

A path is walked name by name, from the root or from the folder that the program
runs in. The walk stops at the first name that leads nowhere, and every name but
the last must be a folder's. A last name with a slash behind it is a folder's too,
so that no file is made there.
-/
import ControlPlane.Error
import ControlPlane.Text.Utf8

namespace ControlPlane

/-- The names that lead from the root to a place, the last one first. -/
abbrev Location := List String

/-- What stands at a place. -/
inductive Entry where
  | folder
  | file (text : String)
  /-- The device that is read as empty and forgets what is written to it. -/
  | null
  deriving DecidableEq, Repr

/-- What stands below the root. -/
structure FileTree where
  entries : List (Location × Entry)
  deriving DecidableEq, Repr

/-- A path as it is written. -/
structure Path where
  /-- It begins at the root. -/
  absolute : Bool
  names : List String
  /-- A slash stands behind the last name. -/
  slash : Bool
  deriving DecidableEq, Repr

/-- The octets that a name may have. -/
def Path.maxName : Nat := 255

/-- The octets that a path may have. -/
def Path.maxSize : Nat := 4095

/-- The last name, which is the folder's own if there is no other. -/
def Path.last (p : Path) : String := p.names.getLast?.getD "."

/-- The path that a text spells, which is neither empty nor too long. Slashes that
follow each other count as one. -/
def Path.parse (text : String) : Except HostFault Path :=
  if text.isEmpty then .error .notFound
  else if maxSize < Utf8.size text.toList then .error .nameTooLong
  else
    let parts := text.toList.splitOn '/'
    .ok ⟨parts.head? == some [], (parts.filter (· != [])).map String.ofList, parts.getLast? == some []⟩

namespace FileTree

/-- The folder in which every program may write. -/
def temporary : Location := ["tmp"]

/-- The folder that the program runs in. -/
def working : Location := "control-plane" :: temporary

/-- The folders at the root of every host. -/
def standardFolders : List String :=
  ["bin", "boot", "dev", "etc", "home", "lib", "media", "mnt", "opt", "proc", "root", "run", "sbin", "srv", "sys",
    "usr", "var"]

/-- The tree of a host whose program runs in a folder with some files. -/
def ofFiles (files : List (String × String)) : FileTree :=
  ⟨files.map (fun f => (f.1 :: working, .file f.2)) ++ (working, .folder) :: (temporary, .folder) ::
    (["null", "dev"], .null) :: standardFolders.map fun name => ([name], .folder)⟩

def get? (t : FileTree) (l : Location) : Option Entry := if l = [] then some .folder else t.entries.lookup l

/-- A file is put at a place, in the stead of what is there. -/
def put (t : FileTree) (l : Location) (text : String) : FileTree :=
  ⟨(l, .file text) :: t.entries.filter (·.1 != l)⟩

/-- Where a name leads from a folder. The root is its own parent. -/
def along (folder : Location) (name : String) : Except HostFault Location :=
  if name = "." then .ok folder
  else if name = ".." then .ok folder.tail
  else if Path.maxName < Utf8.size name.toList then .error .nameTooLong
  else .ok (name :: folder)

/-- The folder that a name leads to. -/
def enter (t : FileTree) (folder : Location) (name : String) : Except HostFault Location :=
  match along folder name with
  | .error fault => .error fault
  | .ok l =>
    match t.get? l with
    | some .folder => .ok l
    | some _ => .error .notDirectory
    | none => .error .notFound

/-- The folder that names lead to, one after the other. -/
def descend (t : FileTree) (folder : Location) : List String → Except HostFault Location
  | [] => .ok folder
  | name :: names =>
    match t.enter folder name with
    | .ok folder => t.descend folder names
    | .error fault => .error fault

/-- The folder in which a path's last name is looked for. -/
def parent (t : FileTree) (p : Path) : Except HostFault Location :=
  t.descend (if p.absolute then [] else working) p.names.dropLast

/-- The text of the file at a place. -/
def textAt (t : FileTree) (slash : Bool) (l : Location) : Except HostFault String :=
  match t.get? l, slash with
  | none, _ => .error .notFound
  | some .folder, _ => .error .isDirectory
  | some _, true => .error .notDirectory
  | some (.file text), false => .ok text
  | some .null, false => .ok ""

def read (t : FileTree) (path : String) : Except HostFault String := do
  let p ← Path.parse path
  let folder ← t.parent p
  t.textAt p.slash (← along folder p.last)

/-- Writes a file at a place, which the program may do in the temporary folder and
below it. -/
def writeAt (t : FileTree) (l : Location) (text : String) : Except HostFault FileTree :=
  match t.get? l with
  | some .folder => .error .isDirectory
  | some .null => .ok t
  | some (.file _) | none => if temporary.isSuffixOf l then .ok (t.put l text) else .error .permissionDenied

def write (t : FileTree) (path text : String) : Except HostFault FileTree := do
  let p ← Path.parse path
  let folder ← t.parent p
  if p.slash then .error .isDirectory else t.writeAt (← along folder p.last) text

end FileTree

end ControlPlane
