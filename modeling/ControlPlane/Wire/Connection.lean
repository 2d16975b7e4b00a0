/-
The record of a tracked connection. The layout is that of both families; only
the width of an address differs.

     0 action    2 protocol    4 flags    6 reserved
     8 orig tuple
       reply tuple
       orig hits and octets
       reply hits and octets

A tuple has source and destination address, source and destination port, route
id, vlan and two reserved octets. The flags name the directions that are left to
the slow path (bit 0 orig, bit 1 reply), of which at most one may be, and whether
the hop limit is decremented (bit 2).
-/
import ControlPlane.Error
import ControlPlane.Wire.Layout

namespace ControlPlane.Wire

/-- The directions of a connection that are forwarded. -/
inductive Directions where
  | both
  | origOnly
  | replyOnly
  deriving DecidableEq, Repr

/-- One direction's addressing, and the route it is forwarded through. -/
structure Tuple where
  source : IpAddress
  destination : IpAddress
  sourcePort : UInt16
  destinationPort : UInt16
  routeId : UInt32
  vlan : UInt16
  deriving DecidableEq, Repr

/-- Packets and octets seen in one direction. -/
structure Traffic where
  hits : UInt32
  octets : UInt64
  deriving DecidableEq, Repr

/-- A tracked connection as it is sent. -/
structure Connection where
  family : Family
  protocol : UInt16
  orig : Tuple
  reply : Tuple
  directions : Directions
  ttlDecrement : Bool
  origTraffic : Traffic
  replyTraffic : Traffic
  deriving DecidableEq, Repr

namespace Directions

def hasOrig : Directions → Bool
  | both | origOnly => true
  | replyOnly => false

def hasReply : Directions → Bool
  | both | replyOnly => true
  | origOnly => false

/-- How many directions are forwarded. -/
def count : Directions → Nat
  | both => 2
  | origOnly | replyOnly => 1

def flags : Directions → UInt16
  | both => 0
  | origOnly => 2
  | replyOnly => 1

/-- The directions that flags leave; none when they leave neither. -/
def ofFlags? (flags : UInt16) : Option Directions :=
  match flags &&& 1 != 0, flags &&& 2 != 0 with
  | false, false => some both
  | false, true => some origOnly
  | true, false => some replyOnly
  | true, true => none

end Directions

namespace Tuple

/-- A tuple with no route and no vlan. -/
def ofEndpoints (source destination : IpAddress) (sourcePort destinationPort : UInt16) : Tuple :=
  { source, destination, sourcePort, destinationPort, routeId := 0, vlan := 0 }

/-- Source and destination change places; the route is not kept. -/
def reversed (t : Tuple) : Tuple :=
  { source := t.destination, destination := t.source, sourcePort := t.destinationPort,
    destinationPort := t.sourcePort, routeId := 0, vlan := t.vlan }

def layout (f : Family) : Layout Tuple :=
  ((Layout.address f).seq <| (Layout.address f).seq <| Layout.u16.seq <| Layout.u16.seq <|
    Layout.u32.seq <| Layout.u16.seq <| Layout.gap 2).through
    (fun (source, destination, sourcePort, destinationPort, routeId, vlan, _) =>
      { source, destination, sourcePort, destinationPort, routeId, vlan })
    (fun t => (t.source, t.destination, t.sourcePort, t.destinationPort, t.routeId, t.vlan, ()))

end Tuple

namespace Traffic

def zero : Traffic := ⟨0, 0⟩

/-- One more packet of a number of octets; both counts wrap. -/
def add (t : Traffic) (octets : UInt64) : Traffic := ⟨t.hits + 1, t.octets + octets⟩

def layout : Layout Traffic :=
  (Layout.u32.seq Layout.u64).through (fun (hits, octets) => ⟨hits, octets⟩)
    (fun t => (t.hits, t.octets))

end Traffic

namespace Connection

/-- A connection in both directions without statistics, of the family of its
orig source. -/
def ofTuples (protocol : UInt16) (orig reply : Tuple) : Connection :=
  { family := orig.source.family, protocol, orig, reply, directions := .both, ttlDecrement := false,
    origTraffic := .zero, replyTraffic := .zero }

/-- A record of a family that says nothing. -/
def blank (f : Family) : Connection :=
  let tuple := Tuple.ofEndpoints f.unspecified f.unspecified 0 0
  ofTuples 0 tuple tuple

/-- The command that carries the record. -/
def command (c : Connection) : Command := .connection c.family

/-- The event that tells of a change to the connection. -/
def changeEvent (c : Connection) : Command := .connectionChange c.family

/-- An address is translated: the replies do not come from where the packets go,
or do not go to where they come from. -/
def translatesAddress (c : Connection) : Bool :=
  c.orig.destination != c.reply.source || c.orig.source != c.reply.destination

/-- The same of the ports. -/
def translatesPort (c : Connection) : Bool :=
  c.orig.destinationPort != c.reply.sourcePort || c.orig.sourcePort != c.reply.destinationPort

/-- The flag of a decremented hop limit. -/
def ttlFlag : UInt16 := 4

def flags (c : Connection) : UInt16 := c.directions.flags ||| (if c.ttlDecrement then ttlFlag else 0)

def layout (f : Family) :
    Layout (UInt16 × UInt16 × UInt16 × Unit × Tuple × Tuple × Traffic × Traffic) :=
  Layout.u16.seq <| Layout.u16.seq <| Layout.u16.seq <| (Layout.gap 2).seq <|
    (Tuple.layout f).seq <| (Tuple.layout f).seq <| Traffic.layout.seq Traffic.layout

def encode (c : Connection) (action : Action) : Bytes :=
  (layout c.family).write (action.number, c.protocol, c.flags, (), c.orig, c.reply, c.origTraffic,
    c.replyTraffic)

def decode (f : Family) (bs : Bytes) : Except Error Connection :=
  let size := Command.connectionSize f
  if bs.length ≠ size then .error (.malformedRecord (Command.connection f).code size bs.length)
  else
    let (_, protocol, bits, _, orig, reply, origTraffic, replyTraffic) := (layout f).read bs
    match Directions.ofFlags? bits with
    | none => .error (.parse .noDirection)
    | some directions =>
      .ok { family := f, protocol, orig, reply, directions, ttlDecrement := bits &&& ttlFlag != 0,
            origTraffic, replyTraffic }

end Connection

end ControlPlane.Wire
