/-
Text as UTF-8 octets: writing it, reading octets that need not be well formed,
and finding where octets can be divided between two characters.

Reading replaces each maximal part that begins no character by U+FFFD: the
octets up to, and not including, the first one that no character could continue
with.
-/
import ControlPlane.Net.Bytes

namespace ControlPlane.Utf8

/-- The octets of a text. -/
def encode (s : String) : Bytes := s.toList.flatMap String.utf8EncodeChar

/-- The number of octets of some characters. -/
def size : List Char → Nat
  | [] => 0
  | c :: cs => c.utf8Size + size cs

/-- What stands in the text for octets that spell no character. -/
def replacement : Char := '\uFFFD'

/-- An octet that continues a character. -/
def isTail (b : UInt8) : Bool := 0x80 ≤ b && b ≤ 0xBF

/-- The second octet a two octet character may have after its first. -/
def isPair (a b : UInt8) : Bool := 0xC2 ≤ a && a ≤ 0xDF && isTail b

/-- The second octet a three octet character may have after its first: shorter
spellings (below U+0800) and surrogates are left out. -/
def isTripleHead (a b : UInt8) : Bool :=
  (a == 0xE0 && 0xA0 ≤ b && b ≤ 0xBF) || (0xE1 ≤ a && a ≤ 0xEC && isTail b) ||
  (a == 0xED && 0x80 ≤ b && b ≤ 0x9F) || (0xEE ≤ a && a ≤ 0xEF && isTail b)

/-- The second octet a four octet character may have after its first: shorter
spellings (below U+10000) and numbers above U+10FFFF are left out. -/
def isQuadHead (a b : UInt8) : Bool :=
  (a == 0xF0 && 0x90 ≤ b && b ≤ 0xBF) || (0xF1 ≤ a && a ≤ 0xF3 && isTail b) ||
  (a == 0xF4 && 0x80 ≤ b && b ≤ 0x8F)

/-- The character whose number has the low bits of `a` in front and six bits of
each following octet. -/
def join (a : UInt8) (mask : Nat) (tail : Bytes) : Char :=
  Char.ofNat (tail.foldl (fun n b => n * 64 + b.toNat % 64) (a.toNat % mask))

/-- The text that octets spell, with one replacement character for each maximal
part that begins no character. -/
def decodeChars : Bytes → List Char
  | [] => []
  | a :: t =>
    if a < 0x80 then Char.ofNat a.toNat :: decodeChars t
    else match t with
      | [] => [replacement]
      | b :: u =>
        if isPair a b then join a 32 [b] :: decodeChars u
        else if isTripleHead a b then
          match u with
          | [] => [replacement]
          | c :: v =>
            if isTail c then join a 16 [b, c] :: decodeChars v
            else replacement :: decodeChars (c :: v)
        else if isQuadHead a b then
          match u with
          | [] => [replacement]
          | c :: v =>
            if isTail c then
              match v with
              | [] => [replacement]
              | d :: w =>
                if isTail d then join a 8 [b, c, d] :: decodeChars w
                else replacement :: decodeChars (d :: w)
            else replacement :: decodeChars (c :: v)
        else replacement :: decodeChars (b :: u)

/-- `decodeChars` as a text. -/
def decode (bs : Bytes) : String := String.ofList (decodeChars bs)

/-- The octets of a text can be divided at a place without dividing a character:
at the front, at the end, and in front of an octet that continues none. -/
def isBoundary (bs : Bytes) (place : Nat) : Bool :=
  place == 0 ||
    match bs[place]? with
    | none => place == bs.length
    | some b => !isTail b

/-- The last boundary that is not behind a place, sought backwards from there; the
front is one at the latest. -/
def boundaryBefore (bs : Bytes) : (place : Nat) → Nat
  | 0 => 0
  | place + 1 => if isBoundary bs (place + 1) then place + 1 else boundaryBefore bs place

end ControlPlane.Utf8
