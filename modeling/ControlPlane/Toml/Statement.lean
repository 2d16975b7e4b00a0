/-
The lines of a TOML document: headers of tables, and settings.

Reading gives the statements of a text in order and says nothing yet about what
they amount to together; writing gives one line for each.
-/
import ControlPlane.Toml.Bare
import ControlPlane.Toml.Node
import ControlPlane.Toml.Quoted

namespace ControlPlane.Toml

/-- A key, behind the keys of the tables it stands in. -/
structure Path where
  outer : List String
  key : String
  deriving DecidableEq, Repr

inductive Statement where
  /-- What follows is about this table. -/
  | table (path : Path)
  /-- What follows is about a new one of these tables. -/
  | element (path : Path)
  | setting (path : Path) (value : Value)

namespace Path

/-- A key of the table at hand. -/
def ofKey (key : String) : Path := ⟨[], key⟩

/-- All keys, outermost first. -/
def keys (p : Path) : List String := p.outer ++ [p.key]

end Path

namespace Statement

open Quoted (isBlank isPlain afterBreak)

/-! ## Reading -/

/-- Keys that a path may have, and arrays and tables that may stand one in
another. -/
def maxDepth : Nat := 79

def skipBlanks (cs : List Char) : List Char := cs.dropWhile isBlank

/-- Skips blanks, line breaks and comments, at first the rest of a comment if
`comment` holds. -/
def skipLines (comment : Bool) : List Char → List Char
  | '\r' :: '\n' :: rest => skipLines false rest
  | c :: rest =>
    if comment && isPlain c then skipLines true rest
    else if c == '#' then skipLines true rest
    else if isBlank c || c == '\n' then skipLines false rest
    else c :: rest
  | [] => []

/-- The rest behind the end of a line: blanks, perhaps a comment, then a line break
or the end of the text. -/
def endLine (cs : List Char) : Option (List Char) :=
  let cs := skipBlanks cs
  let cs := if cs.head? = some '#' then cs.dropWhile isPlain else cs
  if cs.isEmpty then some [] else afterBreak cs

/-- The rest behind some characters. -/
def expect : List Char → List Char → Option (List Char)
  | [], cs => some cs
  | _ :: _, [] => none
  | x :: xs, c :: cs => if x = c then expect xs cs else none

/-- A character of a key without quotes. -/
def isKeyChar (c : Char) : Bool := c.isAlphanum || c == '-' || c == '_'

/-- One key: quoted on one line, or a run of key characters. -/
def readKey : List Char → Option (String × List Char)
  | '"' :: rest => Quoted.readLine '"' rest
  | '\'' :: rest => Quoted.readLine '\'' rest
  | cs =>
    let k := cs.takeWhile isKeyChar
    if k.isEmpty then none else some (String.ofList k, cs.dropWhile isKeyChar)

/-- Keys with dots between them, and blanks around each; so many at most. -/
def readPath : (most : Nat) → List Char → Option (Path × List Char)
  | 0, _ => none
  | most + 1, cs => do
    let (k, rest) ← readKey (skipBlanks cs)
    match skipBlanks rest with
    | '.' :: rest =>
      let (p, rest) ← readPath most rest
      return ({ p with outer := k :: p.outer }, rest)
    | rest => return (.ofKey k, rest)

/-- The items of an array up to its bracket, with a comma behind each but perhaps
the last. At most `most` items are read. -/
def readItems (item : List Char → Option (Value × List Char)) :
    (most : Nat) → List Char → Option (List Value × List Char)
  | 0, _ => none
  | most + 1, cs =>
    match skipLines false cs with
    | ']' :: rest => some ([], rest)
    | cs => do
      let (v, rest) ← item cs
      match skipLines false rest with
      | ']' :: rest => return ([v], rest)
      | ',' :: rest =>
        let (vs, rest) ← readItems item most rest
        return (v :: vs, rest)
      | _ => none

/-- The settings of an inline table up to its brace, with a comma between each two.
At most `most` settings are read. -/
def readSettings (item : List Char → Option (Value × List Char)) :
    (most : Nat) → List Char → Option (List (Path × Value) × List Char)
  | 0, _ => none
  | most + 1, cs => do
    let (p, rest) ← readPath maxDepth cs
    let rest ← expect ['='] rest
    let (v, rest) ← item (skipBlanks rest)
    match skipBlanks rest with
    | '\x7d' :: rest => return ([(p, v)], rest)
    | ',' :: rest =>
      let (ps, rest) ← readSettings item most rest
      return ((p, v) :: ps, rest)
    | _ => none

/-- The table that settings amount to. -/
def tableOf (settings : List (Path × Value)) : Option Value :=
  (settings.foldlM (fun es (s : Path × Value) => Node.assign s.1.outer s.1.key s.2 es) []).map fun es =>
    .table (Node.valuesOf es)

/-- The value at the front of a text, and the rest. Arrays and inline tables may
stand in one another to a depth. -/
def readValue : (depth : Nat) → List Char → Option (Value × List Char)
  | depth + 1, '[' :: cs => do
    let (vs, rest) ← readItems (readValue depth) (cs.length + 1) cs
    return (.array vs, rest)
  | depth + 1, '\x7b' :: cs =>
    match skipBlanks cs with
    | '\x7d' :: rest => some (.table [], rest)
    | cs => do
      let (ps, rest) ← readSettings (readValue depth) (cs.length + 1) cs
      return (← tableOf ps, rest)
  | _, '"' :: cs => (Quoted.read ('"' :: cs)).map fun (s, rest) => (.string s, rest)
  | _, '\'' :: cs => (Quoted.read ('\'' :: cs)).map fun (s, rest) => (.string s, rest)
  | _, cs => Bare.read cs

/-- The statement at the front of a text, and the rest behind its line. -/
def read : List Char → Option (Statement × List Char)
  | '[' :: '[' :: cs => do
    let (p, rest) ← readPath maxDepth cs
    let rest ← expect [']', ']'] rest
    return (.element p, ← endLine rest)
  | '[' :: cs => do
    let (p, rest) ← readPath maxDepth cs
    let rest ← expect [']'] rest
    return (.table p, ← endLine rest)
  | cs => do
    let (p, rest) ← readPath maxDepth cs
    let rest ← expect ['='] rest
    let (v, rest) ← readValue maxDepth (skipBlanks rest)
    return (.setting p v, ← endLine rest)

/-- The statements of a text of at most `most` lines. -/
def readAll : (most : Nat) → List Char → Option (List Statement)
  | 0, _ => none
  | most + 1, cs =>
    let cs := skipBlanks cs
    if cs.isEmpty then some []
    else
      match endLine cs with
      | some rest => readAll most rest
      | none => do
        let (s, rest) ← read cs
        return s :: (← readAll most rest)

/-- The statements of a document. A byte order mark in front is no part of it. -/
def ofText (text : String) : Option (List Statement) :=
  let cs := match text.toList with
    | '\ufeff' :: cs => cs
    | cs => cs
  readAll (cs.length + 1) cs

/-! ## Writing -/

/-- A key, in quotes if it needs them. -/
def writeKey (k : String) : String :=
  if k.isEmpty || !k.toList.all isKeyChar then Quoted.write k else k

def writePath (p : Path) : String := ".".intercalate (p.keys.map writeKey)

mutual

/-- A value on one line. -/
def writeValue : Value → String
  | .string s => Quoted.write s
  | .integer n => toString n
  | .boolean b => if b then "true" else "false"
  | .float text | .instant text => text
  | .array vs => "[" ++ ", ".intercalate (writeItems vs) ++ "]"
  | .table es => "\x7b " ++ ", ".intercalate (writeEntries es) ++ " \x7d"

def writeItems : List Value → List String
  | [] => []
  | v :: vs => writeValue v :: writeItems vs

def writeEntries : List (String × Value) → List String
  | [] => []
  | (k, v) :: es => (writeKey k ++ " = " ++ writeValue v) :: writeEntries es

end

/-- The line of a statement. -/
def line : Statement → String
  | table p => "[" ++ writePath p ++ "]\n"
  | element p => "[[" ++ writePath p ++ "]]\n"
  | setting p v => writePath p ++ " = " ++ writeValue v ++ "\n"

def isHeader : Statement → Bool
  | table _ | element _ => true
  | setting .. => false

/-- The text of a document: a blank line stands before every header but one at the
top. -/
def text : List Statement → String
  | [] => ""
  | s :: rest => s.line ++ String.join (rest.map fun s => if s.isHeader then "\n" ++ s.line else s.line)

end Statement

end ControlPlane.Toml
