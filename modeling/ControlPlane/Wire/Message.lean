/-
The envelope around every datagram, the reply inside it, and the announcement of
a client's back-channel.

    0      1          2        4          6
    +------+----------+--------+----------+-----------------+
    | kind | reserved | code   | length   | payload         |
    +------+----------+--------+----------+-----------------+

The envelope's numbers stand least significant octet first; those of the payload
most significant octet first.
-/
import ControlPlane.Error
import ControlPlane.Wire.Layout

namespace ControlPlane.Wire

/-- What an envelope is for. -/
inductive Kind where
  /-- A command, its reply, or an event. -/
  | command
  /-- A client announces its back-channel. -/
  | register
  /-- A client takes its leave. -/
  | unregister
  deriving DecidableEq, Repr

structure Message where
  kind : Kind
  code : UInt16
  payload : Bytes
  deriving DecidableEq, Repr

/-- The answer to a message: a status, and a record for a listing. -/
structure Reply where
  status : Status
  record : Bytes
  deriving DecidableEq, Repr

namespace Kind

def number : Kind → UInt8
  | command => 0
  | register => 1
  | unregister => 2

def all : List Kind := [command, register, unregister]

def ofNumber? (n : UInt8) : Option Kind := all.find? (·.number == n)

@[simp] theorem ofNumber?_number (k : Kind) : ofNumber? k.number = some k := by cases k <;> rfl

theorem number_of_ofNumber? {n : UInt8} {k : Kind} (h : ofNumber? n = some k) : k.number = n := by
  simpa using List.find?_some h

end Kind

/-- Octets of the envelope in front of the payload. -/
def headerSize : Nat := 6

/-- Octets of the largest datagram of the protocol. -/
def maxDatagram : Nat := headerSize + maxPayload

namespace Message

/-- A message whose payload is within the limit. -/
def ofPayload (kind : Kind) (code : UInt16) (payload : Bytes) : Except Error Message :=
  if maxPayload < payload.length then .error (.parse (.payloadTooLong payload.length))
  else .ok { kind, code, payload }

/-- The number that leads the payload, when it has one. -/
def action? (m : Message) : Option UInt16 :=
  match m.payload with
  | a :: b :: _ => some (UInt16.ofNat (Bytes.value [a, b]))
  | _ => none

/-- The datagram of a message. -/
def encode (m : Message) : Bytes :=
  [m.kind.number, 0] ++ (Bytes.bigEndian 2 m.code.toNat).reverse ++
    (Bytes.bigEndian 2 m.payload.length).reverse ++ m.payload

/-- The message of a datagram. What follows the declared payload is ignored. -/
def decode : Bytes → Except Error Message
  | k :: _ :: c₀ :: c₁ :: l₀ :: l₁ :: rest =>
    match Kind.ofNumber? k with
    | none => .error (.parse (.unknownKind k))
    | some kind =>
      let length := Bytes.value [l₁, l₀]
      if maxPayload < length then .error (.parse (.lengthTooLong length))
      else if rest.length < length then .error (.parse (.truncated length rest.length))
      else .ok { kind, code := UInt16.ofNat (Bytes.value [c₁, c₀]), payload := rest.take length }
  | _ => .error (.parse .headerTooShort)

end Message

namespace Reply

def ofStatus (status : Status) : Reply := ⟨status, []⟩

def ok : Reply := ofStatus .ok

/-- The reply as a message under a code. -/
def toMessage (r : Reply) (code : UInt16) : Message :=
  { kind := .command, code, payload := Layout.u16.write r.status.number ++ r.record }

def ofMessage (m : Message) : Except Error Reply :=
  match m.action? with
  | none => .error (.parse .replyWithoutStatus)
  | some n =>
    match Status.ofNumber? n with
    | none => .error (.parse (.unknownStatus n))
    | some status => .ok ⟨status, m.payload.drop 2⟩

end Reply

/-! ## Announcing a back-channel -/

namespace Registration

/-- Octets of an announcement. -/
def size : Nat := 20

/-- The family, a reserved octet, the port, and sixteen octets for the address. -/
def layout : Layout (UInt8 × Unit × UInt16 × Bytes) :=
  Layout.octet.seq <| (Layout.gap 1).seq <| Layout.u16.seq <| Layout.raw 16

def familyNumber : Family → UInt8
  | .v4 => 4
  | .v6 => 6

def family? (n : UInt8) : Option Family := [Family.v4, .v6].find? (familyNumber · == n)

def encode (a : SocketAddress) : Bytes :=
  layout.write (familyNumber a.ip.family, (), a.port, IpAddress.slot a.ip.family a.ip)

def decode (bs : Bytes) : Except Error SocketAddress :=
  if bs.length ≠ size then .error (.parse (.registrationSize bs.length))
  else
    let (number, _, port, slot) := layout.read bs
    match family? number with
    | none => .error (.parse (.unknownFamily number))
    | some f => .ok { ip := IpAddress.ofSlot f (slot.take f.width), port }

end Registration

end ControlPlane.Wire
