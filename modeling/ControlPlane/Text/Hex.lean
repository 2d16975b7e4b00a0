/-
Numbers written in base sixteen, most significant digit first.
-/
namespace ControlPlane.Hex

/-- The low `width` digits of a number, in lower case. -/
def digits : (width : Nat) → Nat → List Char
  | 0, _ => []
  | width + 1, n => digits width (n / 16) ++ [Nat.digitChar (n % 16)]

/-- The low `width` digits of a number as text. -/
def lower (width n : Nat) : String := String.ofList (digits width n)

/-- `lower` with the letters in upper case. -/
def upper (width n : Nat) : String := String.ofList ((digits width n).map Char.toUpper)

/-- The value of one digit, in either case. -/
def digit? (c : Char) : Option Nat :=
  if '0' ≤ c ∧ c ≤ '9' then some (c.toNat - '0'.toNat)
  else if 'a' ≤ c ∧ c ≤ 'f' then some (c.toNat - 'a'.toNat + 10)
  else if 'A' ≤ c ∧ c ≤ 'F' then some (c.toNat - 'A'.toNat + 10)
  else none

/-- The number that digits spell. -/
def value? (cs : List Char) : Option Nat :=
  cs.foldlM (fun n c => (digit? c).map (n * 16 + ·)) 0

/-- What is behind the plus sign that may stand in front of a number. -/
def unsigned : List Char → List Char
  | '+' :: cs => cs
  | cs => cs

/-- The octet that a number spells: it has a digit at least, and is at most 255. -/
def octet? (cs : List Char) : Option UInt8 :=
  if (unsigned cs).isEmpty then none
  else match value? (unsigned cs) with
    | some n => if n < 256 then some (UInt8.ofNat n) else none
    | none => none

@[simp] theorem length_digits (width n : Nat) : (digits width n).length = width := by
  induction width generalizing n with
  | zero => rfl
  | succ width ih => simp [digits, ih]

end ControlPlane.Hex
