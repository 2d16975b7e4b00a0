/-
The record of a physical interface.

     0 action    2 flags (bit 0 enabled, bit 1 promiscuous)
     4 id        8 name
    24 mac      30 reserved
    32 packets received    36 packets sent
-/
import ControlPlane.Error
import ControlPlane.Wire.Layout

namespace ControlPlane

/-- A physical interface: the same facts stored and sent. -/
structure Interface where
  id : UInt32
  name : String
  mac : Mac
  enabled : Bool
  promiscuous : Bool
  received : UInt32
  sent : UInt32
  deriving DecidableEq

namespace Interface

/-- A record that says nothing. -/
def blank : Interface :=
  { id := 0, name := "", mac := .zero, enabled := false, promiscuous := false, received := 0, sent := 0 }

def flags (i : Interface) : UInt16 :=
  (if i.enabled then 1 else 0) ||| (if i.promiscuous then 2 else 0)

open Wire in
def layout : Layout (UInt16 × UInt16 × UInt32 × String × Mac × Unit × UInt32 × UInt32) :=
  Layout.u16.seq <| Layout.u16.seq <| Layout.u32.seq <| Layout.name.seq <| Layout.mac.seq <|
    (Layout.gap 2).seq <| Layout.u32.seq Layout.u32

def encode (i : Interface) (action : Action) : Bytes :=
  layout.write (action.number, i.flags, i.id, i.name, i.mac, (), i.received, i.sent)

def decode (bs : Bytes) : Except Error Interface :=
  if bs.length ≠ Command.interface.recordSize then
    .error (.malformedRecord Command.interface.code Command.interface.recordSize bs.length)
  else
    let (_, bits, id, name, mac, _, received, sent) := layout.read bs
    .ok { id, name, mac, enabled := bits &&& 1 != 0, promiscuous := bits &&& 2 != 0, received, sent }

end Interface

end ControlPlane
