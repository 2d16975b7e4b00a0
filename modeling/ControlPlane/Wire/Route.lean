/-
The record of a route.

     0 action        2 mtu
     4 source mac   10 destination mac
    16 interface    32 id
    36 flags (bit 0 IPv4, bit 1 IPv6)
    40 next hop     56 hits
-/
import ControlPlane.Error
import ControlPlane.Wire.Layout

namespace ControlPlane.Wire

/-- A route as it is sent. -/
structure Route where
  mtu : UInt16
  sourceMac : Mac
  destinationMac : Mac
  /-- Name of the egress interface. -/
  interface : String
  id : UInt32
  /-- None when the flags name no family or both. -/
  family : Option Family
  nextHop : IpAddress
  hits : UInt32
  deriving DecidableEq

namespace Route

/-- A record that says no more than which route is meant. -/
def ofId (id : UInt32) : Route :=
  { mtu := 0, sourceMac := .zero, destinationMac := .zero, interface := "", id, family := none,
    nextHop := Family.v4.unspecified, hits := 0 }

def flags : Option Family → UInt32
  | none => 0
  | some .v4 => 1
  | some .v6 => 2

/-- The family that flags name: exactly one of its two bits is set. -/
def family? (flags : UInt32) : Option Family :=
  match flags &&& 1 != 0, flags &&& 2 != 0 with
  | true, false => some .v4
  | false, true => some .v6
  | _, _ => none

def layout : Layout (UInt16 × UInt16 × Mac × Mac × String × UInt32 × UInt32 × Bytes × UInt32) :=
  Layout.u16.seq <| Layout.u16.seq <| Layout.mac.seq <| Layout.mac.seq <| Layout.name.seq <|
    Layout.u32.seq <| Layout.u32.seq <| (Layout.raw 16).seq <| Layout.u32

/-- The record under an action. The next hop stands in the form of the route's
family, or of its own when the route has none. -/
def encode (r : Route) (action : Action) : Bytes :=
  layout.write (action.number, r.mtu, r.sourceMac, r.destinationMac, r.interface, r.id,
    flags r.family, IpAddress.slot (r.family.getD r.nextHop.family) r.nextHop, r.hits)

def decode (bs : Bytes) : Except Error Route :=
  if bs.length ≠ Command.route.recordSize then
    .error (.malformedRecord Command.route.code Command.route.recordSize bs.length)
  else
    let (_, mtu, sourceMac, destinationMac, interface, id, bits, slot, hits) := layout.read bs
    let family := family? bits
    let shown := family.getD .v4
    .ok { mtu, sourceMac, destinationMac, interface, id, family,
          nextHop := IpAddress.ofSlot shown (slot.take shown.width), hits }

end Route

end ControlPlane.Wire
