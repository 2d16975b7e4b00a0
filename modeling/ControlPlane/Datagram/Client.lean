/-
A client: what it sends, what it takes for an answer, and what a call comes to.

A client has one request under way at a time. Replies carry no number: what
answers a request is the first datagram under its code, so an answer that comes
after its request was given up is passed over only while the code differs. A fault
of the socket ends the request, and nothing is tried again.
-/
import ControlPlane.Datagram.Network
import ControlPlane.Config.Basic
import ControlPlane.Wire.Record

namespace ControlPlane

/-- What a wait at a socket ends with: a datagram, or a fault of the host. -/
abbrev Arrival := Except HostFault Bytes

/-- What a datagram that the client gives its socket does to the world. The socket may
refuse it; else these are the arrivals before the client gives the request up, which may
answer earlier requests. -/
abbrev Peer (σ : Type) := σ → Bytes → σ × Except HostFault (List Arrival)

structure Client (σ : Type) where
  /-- Everything that is not the client. -/
  world : σ
  /-- What arrived and no call took. -/
  inbox : List Arrival
  /-- Datagrams that were sent, in their order. -/
  sent : List Bytes
  /-- How long a reply is waited for, in nanoseconds. -/
  timeout : Nat
  /-- Where events are received, while a callback is registered. -/
  backChannel : Option SocketAddress

/-- What a client does: it comes to a value or an error, and leaves the client
changed in either case. -/
abbrev Call (σ α : Type) := EStateM Error (Client σ) α

namespace Client

variable {σ α : Type}

/-- The time for a reply when nothing else is said: five seconds. -/
def standardTimeout : Nat := 5 * Duration.second

/-- The time for a reply that milliseconds stand for; none for the usual one. -/
def timeoutOf (milliseconds : Nat) : Nat :=
  if milliseconds = 0 then standardTimeout else milliseconds * Duration.millisecond

/-- A client of an engine, whose socket is bound to any address of the engine's
family and sends to the engine alone. -/
def ofEngine (network : Network) (engine : SocketAddress) (world : σ) : Except Error (Client σ) :=
  match network.bind { ip := engine.ip.family.unspecified, port := 0 }, network.connect engine with
  | .ok (), .ok () => .ok { world, inbox := [], sent := [], timeout := standardTimeout, backChannel := none }
  | .error fault, _ | .ok (), .error fault => .error (.host fault)

/-- A client of the engine that settings tell of. -/
def ofSettings (network : Network) (s : EngineSettings) (world : σ) : Except Error (Client σ) :=
  (ofEngine network s.listen world).map fun c => { c with timeout := timeoutOf s.commandTimeout.toNat }

/-! ## One request -/

/-- The reply to a code, and the arrivals after it. Messages under other codes
are passed over; a fault, or a datagram that is no message, ends the wait. -/
def awaitReply (code : UInt16) (timeout : Nat) : List Arrival → Except Error Wire.Reply × List Arrival
  | [] => (.error (.timeout timeout), [])
  | .error fault :: rest => (.error (.host fault), rest)
  | .ok datagram :: rest =>
    match Wire.Message.decode (datagram.take Wire.maxDatagram) with
    | .error error => (.error error, rest)
    | .ok m => if m.code = code then (Wire.Reply.ofMessage m, rest) else awaitReply code timeout rest

/-- The value of a result, or its error. -/
def settle : Except Error α → Call σ α
  | .ok a => fun c => .ok a c
  | .error error => fun c => .error error c

/-- Sends a message and waits for the reply to its code. What the socket refuses is not
sent, and there is nothing to wait for. -/
def send (peer : Peer σ) (m : Wire.Message) : Call σ Wire.Reply := fun c =>
  match peer c.world m.encode with
  | (world, .error fault) => settle (.error (.host fault)) { c with world }
  | (world, .ok arrived) =>
    let (reply, inbox) := awaitReply m.code c.timeout (c.inbox ++ arrived)
    settle reply { c with world, inbox, sent := c.sent ++ [m.encode] }

/-- Nothing, for a reply that the request was granted. -/
def granted (code : UInt16) (r : Wire.Reply) : Except Error Unit :=
  if r.status.isOk then .ok () else .error (.status code r.status)

/-- Sends a command with a record. -/
def command (peer : Peer σ) (code : UInt16) (action : Action) (record : Wire.Record) :
    Call σ Wire.Reply := do
  send peer (← settle (Wire.Record.encode code action record))

/-- Sends a command that is to be granted. -/
def request (peer : Peer σ) (code : UInt16) (action : Action) (record : Wire.Record) : Call σ Unit := do
  settle (granted code (← command peer code action record))

/-- Sends a message that is no command, and is to be granted. -/
def announce (peer : Peer σ) (kind : Wire.Kind) (payload : Bytes) : Call σ Unit := do
  let m ← settle (Wire.Message.ofPayload kind 0 payload)
  settle (granted 0 (← send peer m))

/-! ## Listings -/

/-- Asks for record after record until the engine has no more. None when so many
requests as `limit` did not come to the end. -/
def list (peer : Peer σ) (code : UInt16) (template : Wire.Record) (decode : Bytes → Except Error α) :
    (limit : Nat) → Action → Call σ (Option (List α))
  | 0, _ => pure none
  | limit + 1, action => do
    let reply ← command peer code action template
    match reply.status with
    | .ok =>
      let a ← settle (decode reply.record)
      let rest ← list peer code template decode limit .queryCont
      return rest.map (a :: ·)
    | .entryNotFound => return some []
    | status => settle (.error (.status code status))

/-- Every route, the oldest first. -/
def queryRoutes (peer : Peer σ) (limit : Nat) : Call σ (Option (List Wire.Route)) :=
  list peer Command.route.code (.route (.ofId 0)) Wire.Route.decode limit .query

/-- Every connection of a family, the oldest first. -/
def queryConnections (peer : Peer σ) (f : Family) (limit : Nat) : Call σ (Option (List Wire.Connection)) :=
  list peer (Command.connection f).code (.connection (.blank f)) (Wire.Connection.decode f) limit .query

/-- Every physical interface. -/
def queryInterfaces (peer : Peer σ) (limit : Nat) : Call σ (Option (List Interface)) :=
  list peer Command.interface.code (.interface .blank) Interface.decode limit .query

/-! ## Routes and connections -/

def registerRoute (peer : Peer σ) (r : Wire.Route) : Call σ Unit :=
  request peer Command.route.code .register (.route r)

def deregisterRoute (peer : Peer σ) (id : UInt32) : Call σ Unit :=
  request peer Command.route.code .deregister (.route (.ofId id))

def registerConnection (peer : Peer σ) (c : Wire.Connection) : Call σ Unit :=
  request peer c.command.code .register (.connection c)

def updateConnection (peer : Peer σ) (c : Wire.Connection) : Call σ Unit :=
  request peer c.command.code .update (.connection c)

def keepAlive (peer : Peer σ) (c : Wire.Connection) : Call σ Unit :=
  request peer c.command.code .keepAlive (.connection c)

def deregisterConnection (peer : Peer σ) (c : Wire.Connection) : Call σ Unit :=
  request peer c.command.code .deregister (.connection c)

/-- Removes all connections and routes of a family. -/
def reset (peer : Peer σ) (f : Family) : Call σ Unit :=
  request peer (Command.reset f).code .register .empty

/-- Sets how long the connections of a protocol's class may be idle. -/
def setTimeout (peer : Peer σ) (protocol : UInt16) (seconds : UInt32) : Call σ Unit :=
  request peer Command.setTimeout.code .register (.idleTimeout ⟨protocol, seconds⟩)

/-! ## Interfaces and the lock -/

def lock (peer : Peer σ) : Call σ Unit :=
  request peer Command.lockSession.code .register .empty

def unlock (peer : Peer σ) : Call σ Unit :=
  request peer Command.unlockSession.code .register .empty

/-- Changes an interface, which takes the lock. -/
def updateInterface (peer : Peer σ) (i : Interface) : Call σ Unit :=
  request peer Command.interface.code .update (.interface i)

/-- A call, and another one after it in any case. The first one's error is told
before the second one's. -/
def followedBy (first : Call σ α) (last : Call σ Unit) : Call σ α := fun c =>
  match first c with
  | .ok a c =>
    match last c with
    | .ok () c => .ok a c
    | .error error c => .error error c
  | .error error c =>
    match last c with
    | .ok () c | .error _ c => .error error c

/-- Does something while holding the lock, which is given back on every way out. -/
def withLock (peer : Peer σ) (body : Call σ α) : Call σ α := do
  lock peer
  followedBy body (unlock peer)

/-! ## The back-channel -/

/-- No back-channel from now on. -/
def dropBackChannel : Call σ Unit := modify fun c => { c with backChannel := none }

/-- Registers a callback on a socket that was bound for it, in place of any
earlier one. Without the engine's consent there is none afterwards. -/
def registerCallback (peer : Peer σ) (bound : Except HostFault SocketAddress) : Call σ Unit := do
  dropBackChannel
  let address ← settle (bound.mapError .host)
  announce peer .register (Wire.Registration.encode address)
  modify fun c => { c with backChannel := some address }

/-- Withdraws the callback, whatever the engine says to it. -/
def unregisterCallback (peer : Peer σ) : Call σ Unit := do
  match (← get).backChannel with
  | none => settle (.error .notRegistered)
  | some _ => followedBy (announce peer .unregister []) dropBackChannel

/-- Takes leave of the engine, which forgets the client and its lock. -/
def close (peer : Peer σ) : Call σ Unit :=
  followedBy (announce peer .unregister []) dropBackChannel

/-! ## What a call leaves -/

@[simp] theorem awaitReply_nil (code : UInt16) (timeout : Nat) :
    awaitReply code timeout [] = (.error (.timeout timeout), []) := rfl

/-- A message under another code is passed over. -/
theorem awaitReply_of_ne {code : UInt16} {timeout : Nat} {datagram : Bytes} {rest : List Arrival} {m : Wire.Message}
    (h : Wire.Message.decode (datagram.take Wire.maxDatagram) = .ok m) (hc : m.code ≠ code) :
    awaitReply code timeout (.ok datagram :: rest) = awaitReply code timeout rest := by
  simp [awaitReply, h, hc]

/-- A message under the code is the reply. -/
theorem awaitReply_of_eq {timeout : Nat} {datagram : Bytes} {rest : List Arrival} {m : Wire.Message}
    (h : Wire.Message.decode (datagram.take Wire.maxDatagram) = .ok m) :
    awaitReply m.code timeout (.ok datagram :: rest) = (Wire.Reply.ofMessage m, rest) := by
  simp [awaitReply, h]

@[simp] theorem settle_ok (a : α) (c : Client σ) : settle (.ok a) c = .ok a c := rfl

@[simp] theorem settle_error (error : Error) (c : Client σ) :
    (settle (.error error) : Call σ α) c = .error error c := rfl

end Client

end ControlPlane
