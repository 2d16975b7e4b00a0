/-
Quoted strings. There are four forms: with double quotes, in which a backslash
leads an escape, and with single quotes, in which everything stands for itself;
each on one line, or over several between triple quotes.

Writing takes the first of the forms in which the text needs no escape; a text
that needs some is written with double quotes.
-/
import ControlPlane.Text.Hex

namespace ControlPlane.Toml

namespace Quoted

/-- A character that stands for itself in a line: no control character but the
tab. -/
def isPlain (c : Char) : Bool := c == '\t' || (0x20 ≤ c.toNat && c.toNat ≠ 0x7F)

def isBlank (c : Char) : Bool := c == ' ' || c == '\t'

/-- What follows a line break at the front. -/
def afterBreak : List Char → Option (List Char)
  | '\n' :: rest => some rest
  | '\r' :: '\n' :: rest => some rest
  | _ => none

/-! ## Reading -/

/-- The character that an escape of one letter stands for. -/
def escaped : Char → Option Char
  | 'b' => some '\x08'
  | 't' => some '\t'
  | 'n' => some '\n'
  | 'f' => some '\x0c'
  | 'r' => some '\r'
  | '"' => some '"'
  | '\\' => some '\\'
  | _ => none

/-- The character whose number hexadecimal digits spell. -/
def numbered (ds : List Char) : Option Char := do
  let n ← Hex.value? ds
  if n.isValidChar then some (Char.ofNat n) else none

/-- The text of what stands between double quotes. In the form over several lines,
a backslash at the end of a line removes the break and all blanks and breaks after
it, during which `joining` holds. -/
def unescape (multiline : Bool) (joining : Bool) : List Char → Option (List Char)
  | [] => some []
  | '\\' :: 'u' :: a :: b :: c :: d :: rest => do
    let x ← numbered [a, b, c, d]
    return x :: (← unescape multiline false rest)
  | '\\' :: 'U' :: a :: b :: c :: d :: e :: f :: g :: h :: rest => do
    let x ← numbered [a, b, c, d, e, f, g, h]
    return x :: (← unescape multiline false rest)
  | '\\' :: c :: rest =>
    match escaped c with
    | some x => (unescape multiline false rest).map (x :: ·)
    | none =>
      if multiline && (afterBreak ((c :: rest).dropWhile isBlank)).isSome then unescape multiline true (c :: rest)
      else none
  | '\r' :: '\n' :: rest =>
    if joining then unescape multiline true rest
    else if multiline then (unescape multiline false rest).map ('\n' :: ·)
    else none
  | c :: rest =>
    if joining && (isBlank c || c == '\n') then unescape multiline true rest
    else if (multiline && c == '\n') || (isPlain c && c != '\\') then (unescape multiline false rest).map (c :: ·)
    else none

/-- The text of what stands between single quotes. -/
def literal (multiline : Bool) : List Char → Option (List Char)
  | [] => some []
  | '\r' :: '\n' :: rest => if multiline then (literal multiline rest).map ('\n' :: ·) else none
  | c :: rest =>
    if isPlain c || (multiline && c == '\n') then (literal multiline rest).map (c :: ·) else none

/-- What stands before the quote that ends a line's string, and what follows it. -/
def splitLine (quote : Char) (escapes : Bool) : List Char → Option (List Char × List Char)
  | [] => none
  | [c] => if c == quote then some ([], []) else none
  | c :: d :: rest =>
    if c == quote then some ([], d :: rest)
    else if escapes && c == '\\' then (splitLine quote escapes rest).map fun (s, r) => (c :: d :: s, r)
    else (splitLine quote escapes (d :: rest)).map fun (s, r) => (c :: s, r)

/-- What stands before the triple quote that ends a string over several lines, and
what follows it. Of more than three quotes in a row up to two belong to the text. -/
def splitLines (quote : Char) (escapes : Bool) : List Char → Option (List Char × List Char)
  | a :: b :: c :: rest =>
    if a == quote && b == quote && c == quote then
      let more := (rest.take 2).takeWhile (· == quote)
      some (more, rest.drop more.length)
    else if escapes && a == '\\' then (splitLines quote escapes (c :: rest)).map fun (s, r) => (a :: b :: s, r)
    else (splitLines quote escapes (b :: c :: rest)).map fun (s, r) => (a :: s, r)
  | _ => none

/-- The text between quotes of a form. -/
def body (quote : Char) (multiline : Bool) (cs : List Char) : Option (List Char) :=
  if quote == '"' then unescape multiline false cs else literal multiline cs

/-- The string on one line that starts behind an opening quote, and the rest. -/
def readLine (quote : Char) (cs : List Char) : Option (String × List Char) := do
  let (s, rest) ← splitLine quote (quote == '"') cs
  return (String.ofList (← body quote false s), rest)

/-- The string over several lines that starts behind an opening triple quote, and
the rest. A line break right behind the quote is no part of the text. -/
def readLines (quote : Char) (cs : List Char) : Option (String × List Char) := do
  let (s, rest) ← splitLines quote (quote == '"') ((afterBreak cs).getD cs)
  return (String.ofList (← body quote true s), rest)

/-- The quoted string of any form at the front of a text, and the rest. -/
def read : List Char → Option (String × List Char)
  | '"' :: '"' :: '"' :: rest => readLines '"' rest
  | '\'' :: '\'' :: '\'' :: rest => readLines '\'' rest
  | '"' :: rest => readLine '"' rest
  | '\'' :: rest => readLine '\'' rest
  | _ => none

/-! ## Writing -/

/-- A control character that can only be written as an escape. -/
def isControl (c : Char) : Bool := c.toNat < 0x20 && c != '\t' && c != '\n' || c.toNat == 0x7F

/-- The length of the longest run of a character. -/
def longestRun (x : Char) (cs : List Char) : Nat :=
  (cs.foldl (fun (here, most) c => if c == x then (here + 1, max most (here + 1)) else (0, most)) (0, 0)).2

/-- A form: its quote, and whether the text may go over several lines. -/
structure Form where
  quote : Char
  multiline : Bool

/-- Whether a form holds a text as it stands. -/
def Form.holds (f : Form) (cs : List Char) : Bool :=
  !cs.any isControl && (f.multiline || !cs.contains '\n') &&
    longestRun f.quote cs ≤ (if f.multiline then 2 else 0) && (f.quote == '\'' || !cs.contains '\\')

/-- The forms in the order in which they are tried. -/
def forms : List Form := [⟨'"', false⟩, ⟨'\'', false⟩, ⟨'"', true⟩, ⟨'\'', true⟩]

/-- A character between double quotes. -/
def escape (multiline : Bool) (c : Char) : List Char :=
  if c == '\x08' then ['\\', 'b']
  else if c == '\t' then ['\\', 't']
  else if c == '\n' then (if multiline then [c] else ['\\', 'n'])
  else if c == '\x0c' then ['\\', 'f']
  else if c == '\r' then ['\\', 'r']
  else if c == '\\' then ['\\', '\\']
  else if isControl c then '\\' :: 'u' :: (Hex.upper 4 c.toNat).toList
  else [c]

/-- A text between double quotes. `room` quotes may stand in a row; so many may
still follow. -/
def escapeAll (multiline : Bool) (room : Nat) : (left : Nat) → List Char → List Char
  | _, [] => []
  | left, c :: rest =>
    if c == '"' then
      match left with
      | 0 => '\\' :: '"' :: escapeAll multiline room room rest
      | left + 1 => '"' :: escapeAll multiline room left rest
    else escape multiline c ++ escapeAll multiline room room rest

/-- The quotes around a text. -/
def Form.mark (f : Form) : List Char := List.replicate (if f.multiline then 3 else 1) f.quote

/-- A text in a form. A text of several lines starts on a line of its own. -/
def Form.write (f : Form) (cs : List Char) : List Char :=
  let room := if f.multiline then 2 else 0
  f.mark ++ (if f.multiline && cs.contains '\n' then ['\n'] else []) ++
    (if f.quote == '"' then escapeAll f.multiline room room cs else cs) ++ f.mark

/-- The form that a text is written in. -/
def formOf (cs : List Char) : Form := (forms.find? (·.holds cs)).getD ⟨'"', cs.contains '\n'⟩

def write (s : String) : String := String.ofList ((formOf s.toList).write s.toList)

end Quoted

end ControlPlane.Toml
