/-
The record of an event of the health monitor.

    0 id    2 severity    3 octets of text    4 text (64 octets)

The text is cut at the last character boundary within sixty-four octets.
-/
import ControlPlane.Error
import ControlPlane.Wire.Layout

namespace ControlPlane.Wire

inductive Severity where
  | info
  | warning
  | error
  deriving DecidableEq, Repr

structure HealthEvent where
  id : UInt16
  severity : Severity
  text : String
  deriving DecidableEq, Repr

namespace Severity

def number : Severity → UInt8
  | info => 0
  | warning => 1
  | error => 2

def all : List Severity := [info, warning, error]

def ofNumber? (n : UInt8) : Option Severity := all.find? (·.number == n)

@[simp] theorem ofNumber?_number (s : Severity) : ofNumber? s.number = some s := by cases s <;> rfl

end Severity

namespace HealthEvent

/-- Octets of text that a record has room for. -/
def textRoom : Nat := 64

def layout : Layout (UInt16 × UInt8 × UInt8 × Bytes) :=
  Layout.u16.seq <| Layout.octet.seq <| Layout.octet.seq <| Layout.raw textRoom

def encode (e : HealthEvent) : Bytes :=
  let text := Utf8.encode e.text
  let kept := Utf8.boundaryBefore text (min text.length textRoom)
  layout.write (e.id, e.severity.number, UInt8.ofNat kept, text.take kept)

def decode (bs : Bytes) : Except Error HealthEvent :=
  if bs.length ≠ Command.healthEvent.recordSize then
    .error (.malformedRecord Command.healthEvent.code Command.healthEvent.recordSize bs.length)
  else
    let (id, number, length, text) := layout.read bs
    match Severity.ofNumber? number with
    | none => .error (.parse (.unknownSeverity number))
    | some severity => .ok { id, severity, text := Utf8.decode (text.take length.toNat) }

end HealthEvent

end ControlPlane.Wire
