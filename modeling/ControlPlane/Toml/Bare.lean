/-
Values without quotes or brackets: booleans, numbers, dates and times.

Such a value is one run of characters. The run is taken as far as it goes and then
has to be one of the forms below as a whole.
-/
import ControlPlane.Text.Hex
import ControlPlane.Toml.Value

namespace ControlPlane.Toml

namespace Bare

/-- The digits of a number without the underscores, each of which stands between
two digits. -/
def digits (isDigit : Char → Bool) : List Char → Option (List Char)
  | [] => none
  | [c] => if isDigit c then some [c] else none
  | c :: '_' :: rest => if isDigit c then (digits isDigit rest).map (c :: ·) else none
  | c :: rest => if isDigit c then (digits isDigit rest).map (c :: ·) else none

/-- The digits of a decimal number, which has no zero in front. -/
def decimal (cs : List Char) : Option (List Char) :=
  match digits Char.isDigit cs with
  | some ('0' :: _ :: _) => none
  | ds => ds

/-- The number that digits of a radix spell. -/
def value (radix : Nat) (ds : List Char) : Nat :=
  ds.foldl (fun n c => n * radix + (Hex.digit? c).getD 0) 0

def isHexDigit (c : Char) : Bool := (Hex.digit? c).isSome

def isOctalDigit (c : Char) : Bool := '0' ≤ c && c ≤ '7'

def isBinaryDigit (c : Char) : Bool := c == '0' || c == '1'

/-! ## Integers -/

/-- An integer of any size: decimal with an optional sign, or in another radix
without one. -/
def anyInteger : List Char → Option Int
  | '0' :: 'x' :: cs => (digits isHexDigit cs).map fun ds => (value 16 ds : Int)
  | '0' :: 'o' :: cs => (digits isOctalDigit cs).map fun ds => (value 8 ds : Int)
  | '0' :: 'b' :: cs => (digits isBinaryDigit cs).map fun ds => (value 2 ds : Int)
  | '-' :: cs => (decimal cs).map fun ds => -(value 10 ds : Int)
  | '+' :: cs => (decimal cs).map fun ds => (value 10 ds : Int)
  | cs => (decimal cs).map fun ds => (value 10 ds : Int)

/-- An integer within the limits. -/
def integer (cs : List Char) : Option Int :=
  (anyInteger cs).filter fun n => Value.minInteger ≤ n && n ≤ Value.maxInteger

/-! ## Numbers with a fraction or an exponent -/

/-- A decimal number: `mantissa · 10 ^ exponent`. -/
structure Scientific where
  mantissa : Nat
  exponent : Int

/-- The least number that is too large for a double, `2^1024 - 2^970`, halfway
between the largest one and the next power of two. -/
def overflowBound : Nat := Nat.pow 2 1024 - Nat.pow 2 970

/-- Whether a number is too large for a double. Numbers of more than 310 digits
are, and numbers of fewer than 300 are not. -/
def Scientific.overflows (x : Scientific) : Bool :=
  if x.mantissa = 0 then false
  else
    let size : Int := (Nat.toDigits 10 x.mantissa).length + x.exponent
    if 310 < size then true
    else if size < 300 then false
    else overflowBound * Nat.pow 10 (-x.exponent).toNat ≤ x.mantissa * Nat.pow 10 x.exponent.toNat

/-- The part before the first character of a kind, and the rest from there on. -/
def before (p : Char → Bool) (cs : List Char) : List Char × List Char :=
  (cs.takeWhile (!p ·), cs.dropWhile (!p ·))

def isExponentMark (c : Char) : Bool := c == 'e' || c == 'E'

/-- The number behind the mark of an exponent. -/
def exponent : List Char → Option Int
  | '-' :: cs => (digits Char.isDigit cs).map fun ds => -(value 10 ds : Int)
  | '+' :: cs => (digits Char.isDigit cs).map fun ds => (value 10 ds : Int)
  | cs => (digits Char.isDigit cs).map fun ds => (value 10 ds : Int)

/-- An unsigned number that has a fraction, an exponent or both. -/
def scientific (cs : List Char) : Option Scientific := do
  let (whole, rest) := before (fun c => c == '.' || isExponentMark c) cs
  let whole ← decimal whole
  match rest with
  | '.' :: rest =>
    let (fraction, rest) := before isExponentMark rest
    let fraction ← digits Char.isDigit fraction
    let e ← if rest.isEmpty then some 0 else exponent rest.tail
    return ⟨value 10 (whole ++ fraction), e - fraction.length⟩
  | _ :: rest => return ⟨value 10 whole, ← exponent rest⟩
  | [] => none

/-- Whether characters without a sign spell infinity or no number. -/
def isSpecial (cs : List Char) : Bool := cs == ['i', 'n', 'f'] || cs == ['n', 'a', 'n']

/-- Whether characters are a number with a fraction or an exponent. One above all
doubles is none; below all doubles there is no such limit. -/
def isFloat (cs : List Char) : Bool :=
  match cs with
  | '-' :: cs => isSpecial cs || (scientific cs).isSome
  | '+' :: cs => isSpecial cs || (scientific cs).any (!·.overflows)
  | cs => isSpecial cs || (scientific cs).any (!·.overflows)

/-! ## Dates and times -/

/-- The number of two digits, when it is within limits. -/
def pair (least most : Nat) (a b : Char) : Option Nat :=
  if a.isDigit && b.isDigit then (some (value 10 [a, b])).filter fun n => least ≤ n && n ≤ most else none

def isLeap (year : Nat) : Bool := year % 4 == 0 && (year % 100 != 0 || year % 400 == 0)

def daysOf (year month : Nat) : Nat :=
  if month = 2 then (if isLeap year then 29 else 28)
  else if month = 4 ∨ month = 6 ∨ month = 9 ∨ month = 11 then 30
  else 31

/-- What follows a date. -/
def date : List Char → Option (List Char)
  | y₁ :: y₂ :: y₃ :: y₄ :: '-' :: m₁ :: m₂ :: '-' :: d₁ :: d₂ :: rest => do
    let year := [y₁, y₂, y₃, y₄]
    guard (year.all Char.isDigit)
    let month ← pair 1 12 m₁ m₂
    let _ ← pair 1 (daysOf (value 10 year) month) d₁ d₂
    return rest
  | _ => none

/-- What follows a time of day. A minute may have a leap second. -/
def time : List Char → Option (List Char)
  | h₁ :: h₂ :: ':' :: m₁ :: m₂ :: ':' :: s₁ :: s₂ :: rest => do
    let _ ← pair 0 23 h₁ h₂
    let _ ← pair 0 59 m₁ m₂
    let _ ← pair 0 60 s₁ s₂
    match rest with
    | '.' :: rest =>
      guard (rest.head?.any Char.isDigit)
      return rest.dropWhile Char.isDigit
    | rest => return rest
  | _ => none

/-- Whether characters are the distance of a clock from that of Greenwich. -/
def isOffset : List Char → Bool
  | [c] => c == 'Z' || c == 'z'
  | [c, h₁, h₂, ':', m₁, m₂] => (c == '+' || c == '-') && (pair 0 23 h₁ h₂).isSome && (pair 0 59 m₁ m₂).isSome
  | _ => false

/-- Whether characters are a date, a time, or a date and a time with or without
an offset. -/
def isInstant (cs : List Char) : Bool :=
  match date cs with
  | some [] => true
  | some (c :: rest) => (c == 'T' || c == 't' || c == ' ') && (time rest).any fun r => r.isEmpty || isOffset r
  | none => (time cs).any List.isEmpty

/-! ## Reading -/

/-- What a run of characters stands for. -/
def ofRun (cs : List Char) : Option Value :=
  if cs == ['t', 'r', 'u', 'e'] then some (.boolean true)
  else if cs == ['f', 'a', 'l', 's', 'e'] then some (.boolean false)
  else if isInstant cs then some (.instant (String.ofList cs))
  else if isFloat cs then some (.float (String.ofList cs))
  else (integer cs).map .integer

def isRunChar (c : Char) : Bool := c.isAlphanum || c == '+' || c == '-' || c == '_' || c == '.' || c == ':'

/-- The run at the front of a text, and the rest. A blank between a date and a
digit belongs to the run. -/
def run (cs : List Char) : List Char × List Char :=
  let first := cs.takeWhile isRunChar
  match date first, cs.dropWhile isRunChar with
  | some [], ' ' :: d :: rest =>
    if d.isDigit then (first ++ ' ' :: (d :: rest).takeWhile isRunChar, (d :: rest).dropWhile isRunChar)
    else (first, ' ' :: d :: rest)
  | _, rest => (first, rest)

/-- The bare value at the front of a text, and the rest. -/
def read (cs : List Char) : Option (Value × List Char) :=
  let (cs, rest) := run cs
  (ofRun cs).map (·, rest)

end Bare

end ControlPlane.Toml
