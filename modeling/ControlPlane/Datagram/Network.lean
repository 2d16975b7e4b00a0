/-
What a host lends for sockets.

Whether a socket can be bound, tied to a peer, or given a datagram to send is up to the
host, and may change from one datagram to the next.
-/
import ControlPlane.Error

namespace ControlPlane

/-- A datagram on its way out. -/
structure Outgoing where
  receiver : SocketAddress
  datagram : Bytes
  deriving DecidableEq, Repr

/-- What the sockets of a host do. -/
structure Network where
  /-- Binds a socket to an address. -/
  bind : SocketAddress → Except HostFault Unit
  /-- Ties a bound socket to the one address that it sends to. -/
  connect : SocketAddress → Except HostFault Unit
  /-- What becomes of a datagram that a socket is given to send, by how many it was given
  before. -/
  send : Nat → Outgoing → Except HostFault Unit

namespace Network

/-- A host that lends no sockets to the program. -/
def offline : Network where
  bind _ := .error .permissionDenied
  connect _ := .error .permissionDenied
  send _ _ := .error .permissionDenied

end Network

end ControlPlane
