/-
An engine behind a socket.

Everything is done one after the other: a datagram is answered before the events
that it caused are sent. A reply that cannot be sent is lost. An event that cannot
be sent is counted, and its client is left out from then on.
-/
import ControlPlane.Datagram.Network
import ControlPlane.Engine.Dispatch

namespace ControlPlane

structure Server where
  /-- Where commands are taken. -/
  address : SocketAddress
  /-- The host that lends the socket. -/
  network : Network
  engine : Engine
  /-- How many datagrams the socket was given to send. -/
  given : Nat
  /-- False once the server was shut down. -/
  serving : Bool

/-- An event as it is sent. -/
def Notification.outgoing (n : Notification) : Outgoing := ⟨n.backChannel, n.message.encode⟩

namespace Server

/-- Datagrams that are still answered when the server is shut down. -/
def maxDrained : Nat := 64

/-- A server for an engine, with its socket bound. -/
def ofEngine (network : Network) (address : SocketAddress) (engine : Engine) : Except Error Server :=
  match network.bind address with
  | .ok () => .ok { address, network, engine, given := 0, serving := true }
  | .error fault => .error (.host fault)

/-- Gives the socket a datagram to send. -/
def transmit (s : Server) (o : Outgoing) : Server × Except HostFault Unit :=
  ({ s with given := s.given + 1 }, s.network.send s.given o)

/-- Sends a reply. Nothing comes of one that cannot be sent. -/
def respond (s : Server) (reply : Outgoing) : Server × List Outgoing :=
  match s.transmit reply with
  | (s, .ok ()) => (s, [reply])
  | (s, .error _) => (s, [])

/-- Sends an event, or notes that it could not be sent. -/
def deliverOne (s : Server) (n : Notification) : Server × List Outgoing :=
  match s.transmit n.outgoing with
  | (s, .ok ()) => ({ s with engine := s.engine.count .delivered 1 }, [n.outgoing])
  | (s, .error _) => ({ s with engine := (s.engine.count .undelivered 1).markUnreachable n.client }, [])

/-- Sends events in their order. -/
def deliver (s : Server) : List Notification → Server × List Outgoing
  | [] => (s, [])
  | n :: ns =>
    let (s, out) := s.deliverOne n
    let (s, others) := s.deliver ns
    (s, out ++ others)

/-- Answers a datagram: the reply goes out before the events. What is no message is
not answered. -/
def answer (s : Server) (sender : SocketAddress) (datagram : Bytes) (now : Nat) : Server × List Outgoing :=
  match s.engine.receive ⟨sender⟩ datagram now with
  | (engine, .error _) => ({ s with engine }, [])
  | (engine, .ok (reply, events)) =>
    let (s, replied) := { s with engine }.respond ⟨sender, reply.encode⟩
    let (s, out) := s.deliver events
    (s, replied ++ out)

/-- Takes a datagram, of which the socket keeps no more than the protocol's largest. -/
def handle (s : Server) (sender : SocketAddress) (datagram : Bytes) (now : Nat) : Server × List Outgoing :=
  s.answer sender (datagram.take Wire.maxDatagram) now

/-- Takes datagrams in their order. -/
def handleAll (s : Server) (now : Nat) : List (SocketAddress × Bytes) → Server × List Outgoing
  | [] => (s, [])
  | (sender, datagram) :: rest =>
    let (s, out) := s.handle sender datagram now
    let (s, others) := s.handleAll now rest
    (s, out ++ others)

/-- A datagram arrives. Nobody takes it once the server was shut down. -/
def receive (s : Server) (sender : SocketAddress) (datagram : Bytes) (now : Nat) : Server × List Outgoing :=
  if s.serving then s.handle sender datagram now else (s, [])

/-- Looks for idle connections. -/
def age (s : Server) (now : Nat) : Server × List Outgoing :=
  if s.serving then
    let (engine, events) := s.engine.age now
    { s with engine }.deliver events
  else (s, [])

/-- The health monitor asks for an event to be sent to every subscriber. -/
def raise (s : Server) (event : Wire.HealthEvent) : Except Error (Server × List Outgoing) :=
  if s.serving then .ok (s.deliver (s.engine.health event)) else .error (.host .serverStopped)

/-- Shuts the server and its engine down. Datagrams that are queued are answered
first, up to a limit. -/
def shutdown (s : Server) (queued : List (SocketAddress × Bytes)) (now : Nat) : Server × List Outgoing :=
  if s.serving then
    let (s, out) := s.handleAll now (queued.take maxDrained)
    ({ s with engine := s.engine.shutdown, serving := false }, out)
  else (s, [])

end Server

end ControlPlane
