/-
The record that sets how long a connection of a protocol may be idle.

    0 protocol (6 TCP, 17 UDP, 0 all others)    2 reserved    4 seconds
-/
import ControlPlane.Error
import ControlPlane.Wire.Layout

namespace ControlPlane.Wire

structure IdleTimeout where
  protocol : UInt16
  seconds : UInt32
  deriving DecidableEq, Repr

namespace IdleTimeout

def layout : Layout (UInt16 × Unit × UInt32) :=
  Layout.u16.seq <| (Layout.gap 2).seq Layout.u32

def encode (t : IdleTimeout) : Bytes := layout.write (t.protocol, (), t.seconds)

def decode (bs : Bytes) : Except Error IdleTimeout :=
  if bs.length ≠ Command.setTimeout.recordSize then
    .error (.malformedRecord Command.setTimeout.code Command.setTimeout.recordSize bs.length)
  else
    let (protocol, _, seconds) := layout.read bs
    .ok { protocol, seconds }

end IdleTimeout

end ControlPlane.Wire
