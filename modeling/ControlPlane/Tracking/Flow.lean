/-
What tells the packets of a connection apart: the five values that all packets of
one direction share.
-/
import ControlPlane.Wire.Connection

namespace ControlPlane

/-- The five values by which a packet is matched to a connection's direction. -/
structure FlowKey where
  protocol : UInt16
  source : IpAddress
  destination : IpAddress
  sourcePort : UInt16
  destinationPort : UInt16
  deriving DecidableEq

/-- A direction of a connection. -/
inductive Direction where
  | orig
  | reply
  deriving DecidableEq, Repr

namespace FlowKey

/-- The key of a tuple's packets. -/
def ofTuple (protocol : UInt16) (t : Wire.Tuple) : FlowKey :=
  { protocol, source := t.source, destination := t.destination, sourcePort := t.sourcePort,
    destinationPort := t.destinationPort }

/-- The key of packets that go the other way. -/
def reversed (k : FlowKey) : FlowKey :=
  { protocol := k.protocol, source := k.destination, destination := k.source,
    sourcePort := k.destinationPort, destinationPort := k.sourcePort }

end FlowKey

end ControlPlane

namespace ControlPlane.Wire.Connection

/-- A direction's tuple. -/
def tuple (c : Connection) : Direction → Tuple
  | .orig => c.orig
  | .reply => c.reply

/-- Whether a direction is forwarded. -/
def forwards (c : Connection) : Direction → Bool
  | .orig => c.directions.hasOrig
  | .reply => c.directions.hasReply

/-- The key of a direction's packets. -/
def key (c : Connection) (d : Direction) : FlowKey := FlowKey.ofTuple c.protocol (c.tuple d)

/-- The directions that are forwarded, in order. -/
def forwarded (c : Connection) : List Direction := [Direction.orig, Direction.reply].filter c.forwards

/-- The connection after one more packet of a direction. -/
def hit (c : Connection) (d : Direction) (octets : UInt64) : Connection :=
  match d with
  | .orig => { c with origTraffic := c.origTraffic.add octets }
  | .reply => { c with replyTraffic := c.replyTraffic.add octets }

@[simp] theorem mem_forwarded {c : Connection} {d : Direction} : d ∈ c.forwarded ↔ c.forwards d = true := by
  cases d <;> simp [forwarded]

theorem length_forwarded (c : Connection) : c.forwarded.length = c.directions.count := by
  cases h : c.directions <;>
    simp [forwarded, forwards, h, Directions.hasOrig, Directions.hasReply, Directions.count]

@[simp] theorem key_hit (c : Connection) (d : Direction) (octets : UInt64) (d' : Direction) :
    (c.hit d octets).key d' = c.key d' := by
  cases d <;> cases d' <;> rfl

end ControlPlane.Wire.Connection
