/-
How long a connection may be idle, by the class of its protocol.
-/
import ControlPlane.Wire.Command

namespace ControlPlane

/-- Seconds that a connection may be idle: TCP (6), UDP (17) and all others. -/
structure IdleTimeouts where
  tcp : Nat
  udp : Nat
  other : Nat
  deriving DecidableEq, Repr

namespace IdleTimeouts

def ofProtocol (t : IdleTimeouts) (protocol : UInt16) : Nat :=
  if protocol = 6 then t.tcp else if protocol = 17 then t.udp else t.other

/-- The timeout of a class; protocol zero stands for all others. -/
def set (t : IdleTimeouts) (protocol : UInt16) (seconds : Nat) : Except Status IdleTimeouts :=
  if protocol = 6 then .ok { t with tcp := seconds }
  else if protocol = 17 then .ok { t with udp := seconds }
  else if protocol = 0 then .ok { t with other := seconds }
  else .error .wrongParam

/-- A connection of a protocol that was last seen at an instant is idle for too
long at another. Instants are in milliseconds; nothing is idle before it was
seen. -/
def exceeded (t : IdleTimeouts) (protocol : UInt16) (seen now : Nat) : Bool :=
  t.ofProtocol protocol * 1000 < now - seen

end IdleTimeouts

end ControlPlane
