/-
A span of time as text: a count of the largest unit that it fills, with as many
decimal places as it needs and none that are zero at the end.
-/
namespace ControlPlane.Duration

/-- Nanoseconds of a microsecond. -/
def microsecond : Nat := 1000

/-- Nanoseconds of a millisecond. -/
def millisecond : Nat := 1000000

/-- Nanoseconds of a second. -/
def second : Nat := 1000000000

/-- The digits of `n` in `places` decimal places, without the zeros at the end. -/
def fraction (places n : Nat) : List Char :=
  let ds := Nat.toDigits 10 n
  (List.replicate (places - ds.length) '0' ++ ds).reverse.dropWhile (· == '0') |>.reverse

/-- A count of units of `size` nanoseconds, which is one with so many zeros as
`places`. -/
def count (size places nanos : Nat) (unit : String) : String :=
  let whole := toString (nanos / size)
  match fraction places (nanos % size) with
  | [] => whole ++ unit
  | ds => whole ++ "." ++ String.ofList ds ++ unit

/-- A span given in nanoseconds, in seconds, milliseconds, microseconds or
nanoseconds. -/
def render (nanos : Nat) : String :=
  if second ≤ nanos then count second 9 nanos "s"
  else if millisecond ≤ nanos then count millisecond 6 nanos "ms"
  else if microsecond ≤ nanos then count microsecond 3 nanos "µs"
  else toString nanos ++ "ns"

end ControlPlane.Duration
