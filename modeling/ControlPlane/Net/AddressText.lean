/-
Internet and socket addresses as text: the canonical form of RFC 5952, and the
forms that are read.

Read are dotted IPv4 addresses (four decimal numbers without leading zeros),
IPv6 addresses in groups of up to four hexadecimal digits with at most one `::`
and an IPv4 address allowed as the last two groups, and sockets as
`1.2.3.4:5`, `[::1]:5` or `[fe80::1%3]:5`.
-/
import ControlPlane.Net.Address
import ControlPlane.Text.Hex

namespace ControlPlane

namespace IpAddress

/-- The four octets of an IPv4 address with points between them. -/
def dotted (bits : BitVec 32) : String :=
  String.intercalate "." ((Bytes.bigEndian 4 bits.toNat).map fun b => toString b.toNat)

/-- The low `count` groups of sixteen bits of a number, the most significant
first. -/
def groupsOf : (count : Nat) → Nat → List Nat
  | 0, _ => []
  | count + 1, n => groupsOf count (n / 65536) ++ [n % 65536]

/-- The number that groups of sixteen bits spell. -/
def ofGroups (gs : List Nat) : Nat := gs.foldl (fun n g => n * 65536 + g) 0

/-- Zero groups from the front. -/
def zeroRun (gs : List Nat) : Nat := (gs.takeWhile (· == 0)).length

/-- Where the longest run of zero groups starts, the first one on a tie, and how
long it is. -/
def longestZeroRun (gs : List Nat) : Nat × Nat :=
  (List.range gs.length).foldl
    (fun best i => if best.2 < zeroRun (gs.drop i) then (i, zeroRun (gs.drop i)) else best) (0, 0)

/-- Groups in hexadecimal with colons between them. -/
def colonHex (gs : List Nat) : String :=
  String.intercalate ":" (gs.map fun g => String.ofList (Nat.toDigits 16 g))

/-- The groups of an IPv6 address, where a longest run of at least two zero
groups is written `::`. -/
def compressed (gs : List Nat) : String :=
  let (start, len) := longestZeroRun gs
  if 1 < len then colonHex (gs.take start) ++ "::" ++ colonHex (gs.drop (start + len)) else colonHex gs

/-- The canonical text of an address; a mapped IPv4 address ends in dotted
form. -/
def render : IpAddress → String
  | v4 bits => dotted bits
  | v6 bits =>
    match unmapped? bits with
    | some inner => "::ffff:" ++ dotted inner
    | none => compressed (groupsOf 8 bits.toNat)

/-! ## Reading

Each reader takes characters from the front and gives back what follows. -/

/-- A run of digits of base `radix`: at most `most` of them, with a value below
`bound`, and, unless `padded`, no zero in front of another digit. -/
def readNumber (radix : Nat) (most : Option Nat) (bound : Nat) (padded : Bool) (s : List Char) :
    Option (Nat × List Char) :=
  let isDigit := fun c => (Hex.digit? c).any (· < radix)
  let ds := s.takeWhile isDigit
  let n := ds.foldl (fun n c => n * radix + (Hex.digit? c).getD 0) 0
  if ds.isEmpty || most.any (· < ds.length) || (!padded && ds.head? == some '0' && 1 < ds.length)
      || bound ≤ n then
    none
  else some (n, s.dropWhile isDigit)

/-- The rest after a given character. -/
def skip (c : Char) : List Char → Option (List Char)
  | d :: s => if c == d then some s else none
  | [] => none

/-- One octet of a dotted address. -/
def readOctet (s : List Char) : Option (Nat × List Char) := readNumber 10 (some 3) 256 false s

/-- A dotted IPv4 address. -/
def readDotted (s : List Char) : Option (BitVec 32 × List Char) := do
  let (a, s) ← readOctet s
  let (b, s) ← readOctet (← skip '.' s)
  let (c, s) ← readOctet (← skip '.' s)
  let (d, s) ← readOctet (← skip '.' s)
  return (BitVec.ofNat 32 (((a * 256 + b) * 256 + c) * 256 + d), s)

/-- As many groups as there are, up to `room`, with colons between them. A
dotted address counts as two groups and ends the run; the flag tells whether one
did. -/
def readGroups (first : Bool) : (room : Nat) → List Char → List Nat × Bool × List Char
  | 0, s => ([], false, s)
  | room + 1, s =>
    match if first then some s else skip ':' s with
    | none => ([], false, s)
    | some t =>
      match if room = 0 then none else readDotted t with
      | some (a, rest) => ([a.toNat / 65536, a.toNat % 65536], true, rest)
      | none =>
        match readNumber 16 (some 4) 65536 true t with
        | some (g, rest) =>
          let (gs, dottedTail, rest) := readGroups false room rest
          (g :: gs, dottedTail, rest)
        | none => ([], false, s)

/-- An IPv6 address: eight groups, or fewer with one `::` for the missing
ones. -/
def readColonHex (s : List Char) : Option (BitVec 128 × List Char) :=
  let (head, dottedTail, rest) := readGroups true 8 s
  if head.length = 8 then some (BitVec.ofNat 128 (ofGroups head), rest)
  else if dottedTail then none
  else do
    let rest ← skip ':' (← skip ':' rest)
    let (tail, _, rest) := readGroups true (7 - head.length) rest
    let gap := List.replicate (8 - head.length - tail.length) 0
    return (BitVec.ofNat 128 (ofGroups (head ++ gap ++ tail)), rest)

/-- The address that a whole text spells. -/
def ofText? (text : String) : Option IpAddress :=
  match readDotted text.toList with
  | some (bits, []) => some (.v4 bits)
  | some _ => none
  | none =>
    match readColonHex text.toList with
    | some (bits, []) => some (.v6 bits)
    | _ => none

end IpAddress

namespace SocketAddress

open IpAddress (skip readNumber readDotted readColonHex)

/-- The canonical text of a socket address. -/
def render (a : SocketAddress) : String :=
  match a.ip with
  | .v4 _ => a.ip.render ++ ":" ++ toString a.port.toNat
  | .v6 _ =>
    let zone := if a.zone = 0 then "" else "%" ++ toString a.zone.toNat
    "[" ++ a.ip.render ++ zone ++ "]:" ++ toString a.port.toNat

/-- A colon and a port. -/
def readPort (s : List Char) : Option (UInt16 × List Char) := do
  let (n, s) ← readNumber 10 none (Bytes.span 2) true (← skip ':' s)
  return (UInt16.ofNat n, s)

/-- A percent sign and a zone, or nothing for zone zero. -/
def readZone (s : List Char) : UInt32 × List Char :=
  match (skip '%' s).bind (readNumber 10 none (Bytes.span 4) true) with
  | some (n, rest) => (UInt32.ofNat n, rest)
  | none => (0, s)

def readV4 (s : List Char) : Option (SocketAddress × List Char) := do
  let (bits, s) ← readDotted s
  let (port, s) ← readPort s
  return ({ ip := .v4 bits, port }, s)

def readV6 (s : List Char) : Option (SocketAddress × List Char) := do
  let (bits, s) ← readColonHex (← skip '[' s)
  let (zone, s) := readZone s
  let (port, s) ← readPort (← skip ']' s)
  return ({ ip := .v6 bits, port, zone }, s)

/-- The socket address that a whole text spells. -/
def ofText? (text : String) : Option SocketAddress :=
  match (readV4 text.toList).orElse fun _ => readV6 text.toList with
  | some (a, []) => some a
  | _ => none

end SocketAddress

end ControlPlane
