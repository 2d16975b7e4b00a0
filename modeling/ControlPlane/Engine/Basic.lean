/-
The engine: its tables, and the operations on them that messages and the host ask
for.

An operation that can fail gives the engine back only when it succeeds, but for
`dropRoute`, whose last step comes after others have changed the engine.
-/
import ControlPlane.Client.Session
import ControlPlane.Config.Basic
import ControlPlane.Interfaces.Table
import ControlPlane.Metrics
import ControlPlane.Routing.Table
import ControlPlane.Store.Cursor
import ControlPlane.Tracking.Table
import ControlPlane.Wire.Record

namespace ControlPlane

/-- Where the listing of each kind of resource stands. Clients share it. -/
structure Cursors where
  routes : Cursor
  connections : PerFamily Cursor
  interfaces : Cursor

structure Engine where
  routes : RouteTable
  connections : PerFamily ConnectionTable
  interfaces : InterfaceTable
  cursors : Cursors
  session : Session
  subscribers : Subscribers
  timeouts : IdleTimeouts
  metrics : Metrics
  /-- False once the engine was shut down. -/
  running : Bool

namespace Engine

/-- An engine with the interfaces and the timeouts of a configuration. -/
def ofConfig (c : Config) : Except Error Engine := do
  let interfaces ← InterfaceTable.ofSettings c.interfaces
  return {
    routes := .empty
    connections := ⟨.empty .v4, .empty .v6⟩
    interfaces
    cursors := ⟨.idle, ⟨.idle, .idle⟩, .idle⟩
    session := .free
    subscribers := .empty
    timeouts :=
      { tcp := c.timeouts.tcp.toNat, udp := c.timeouts.udp.toNat, other := c.timeouts.other.toNat }
    metrics := .zero
    running := true }

/-- Notes the sizes of the tables in the metrics. -/
def noteSizes (e : Engine) : Engine :=
  { e with
    metrics :=
      e.metrics.note e.routes.size (e.connections.v4.size + e.connections.v6.size) e.subscribers.size }

def count (e : Engine) (c : Counter) (n : UInt64) : Engine := { e with metrics := e.metrics.add c n }

/-- The families, in the order in which their tables are worked on. -/
def families : List Family := [.v4, .v6]

/-- The table of a family in place of the engine's. -/
def withConnections (e : Engine) (f : Family) (t : ConnectionTable) : Engine :=
  { e with connections := e.connections.set f t }

/-! ## Routes -/

/-- Registers a route for a client, through the interface that it names. -/
def addRoute (e : Engine) (r : Wire.Route) (owner : Option ClientId) : Except Status Engine :=
  if e.routes.contains r.id then .error .alreadyRegistered
  else
    match r.family, e.interfaces.resolve? r.interface with
    | none, _ | _, none => .error .wrongParam
    | some family, some egress =>
      (e.routes.add
        { id := r.id, family, sourceMac := r.sourceMac, destinationMac := r.destinationMac,
          egress := egress.name, egressId := egress.id, nextHop := r.nextHop, mtu := r.mtu, owner,
          hits := 0 }).map fun routes => { e with routes }

/-- The event that a route went away. -/
def routeRemoved (r : Route) : Wire.Message :=
  { kind := .command, code := Command.route.code, payload := r.toWire.encode .removed }

/-- Tells a route's owner that the route goes away, when it has a back-channel. -/
def tellOwner (e : Engine) (r : Route) : List Notification :=
  (r.owner.bind fun owner => e.subscribers.unicast owner (routeRemoved r)).toList

/-- Removes one connection, and counts it, because its route goes away. -/
def cascadeOne (f : Family) (e : Engine) (seq : Nat) : Engine :=
  match (e.connections.get f).remove seq with
  | (none, _) => e
  | (some _, t) => (e.withConnections f t).count .cascaded 1

/-- Removes the connections of a family that use a route. -/
def cascade (id : UInt32) (e : Engine) (f : Family) : Engine :=
  ((e.connections.get f).usingRoute id).foldl (cascadeOne f) e

/-- Removes a route: its owner is told, the connections that use it go, then the
route itself. -/
def dropRoute (e : Engine) (id : UInt32) : Engine × Status × List Notification :=
  match e.routes.get? id with
  | none => (e, .entryNotFound, [])
  | some route =>
    let events := e.tellOwner route
    let e := families.foldl (cascade id) e
    match e.routes.remove id with
    | (some _, routes) => ({ e with routes }, .ok, events)
    | (none, routes) => ({ e with routes }, .internalFailure, events)

/-- Removes routes one by one, whatever becomes of each. -/
def dropRoutes (e : Engine) : List UInt32 → Engine × List Notification
  | [] => (e, [])
  | id :: ids =>
    let (e, _, events) := e.dropRoute id
    let (e, others) := e.dropRoutes ids
    (e, events ++ others)

/-- Removes a family's connections, then its routes. -/
def reset (e : Engine) (f : Family) : Engine × List Notification :=
  let e := e.withConnections f (e.connections.get f).clear
  e.dropRoutes (e.routes.ids (some f))

/-! ## Connections -/

/-- Whether a route is one of a family. -/
def routeServes (e : Engine) (f : Family) (id : UInt32) : Bool :=
  (e.routes.get? id).any (·.family == f)

/-- Registers a connection whose forwarded directions have routes of its family. -/
def addConnection (e : Engine) (c : Wire.Connection) (now : Nat) : Except Status Engine :=
  if c.forwarded.all fun d => e.routeServes c.family (c.tuple d).routeId then
    ((e.connections.get c.family).add c now).map fun (_, t) => e.withConnections c.family t
  else .error .wrongParam

/-- The engine with the connection changed that a record's orig tuple leads to. -/
def modifyFound (e : Engine) (c : Wire.Connection) (f : Tracked → Tracked) : Except Status Engine :=
  let table := e.connections.get c.family
  match table.find? c.protocol c.orig with
  | none => .error .entryNotFound
  | some seq =>
    match table.get? seq with
    | none => .error .internalFailure
    | some _ => .ok (e.withConnections c.family (table.modify seq f))

/-- Sets whether a connection's hop limit is decremented; nothing else of a
connection can be changed. -/
def updateConnection (e : Engine) (c : Wire.Connection) : Except Status Engine :=
  e.modifyFound c fun entry =>
    { entry with connection := { entry.connection with ttlDecrement := c.ttlDecrement } }

/-- Counts a connection as seen. -/
def keepAlive (e : Engine) (c : Wire.Connection) (now : Nat) : Except Status Engine :=
  e.modifyFound c fun entry => { entry with seen := now }

def removeConnection (e : Engine) (c : Wire.Connection) : Except Status Engine :=
  let table := e.connections.get c.family
  match table.find? c.protocol c.orig with
  | none => .error .entryNotFound
  | some seq =>
    match table.remove seq with
    | (none, _) => .error .internalFailure
    | (some _, t) => .ok (e.withConnections c.family t)

/-- Sets how long connections of a class may be idle, which is never no time. -/
def setTimeout (e : Engine) (t : Wire.IdleTimeout) : Except Status Engine :=
  if t.seconds = 0 then .error .wrongParam
  else (e.timeouts.set t.protocol t.seconds.toNat).map fun timeouts => { e with timeouts }

/-- The event that a connection went away. -/
def connectionRemoved (c : Wire.Connection) : Wire.Message :=
  { kind := .command, code := c.changeEvent.code, payload := c.encode .removed }

/-- Removes connections of a family by their numbers, which come in order. -/
def takeConnections (f : Family) (e : Engine) : List Nat → Engine × List Wire.Connection
  | [] => (e, [])
  | seq :: rest =>
    match (e.connections.get f).remove seq with
    | (none, _) => takeConnections f e rest
    | (some entry, t) =>
      let (e, others) := takeConnections f (e.withConnections f t) rest
      (e, entry.connection :: others)

/-- Removes a family's idle connections and tells every subscriber of each. -/
def ageFamily (e : Engine) (f : Family) (now : Nat) : Engine × List Notification :=
  let (e, removed) := takeConnections f e ((e.connections.get f).expired e.timeouts now)
  (e.count .aged (.ofNat removed.length),
    removed.flatMap fun c => e.subscribers.broadcast (connectionRemoved c))

/-- Removes all idle connections. An engine that was shut down removes none. -/
def age (e : Engine) (now : Nat) : Engine × List Notification :=
  if e.running then
    let (e, v4) := e.ageFamily .v4 now
    let (e, v6) := e.ageFamily .v6 now
    (e.noteSizes, v4 ++ v6)
  else (e, [])

/-- Counts a forwarded packet for its connection and route. False for a packet
of no connection. -/
def account (e : Engine) (f : Family) (key : FlowKey) (octets : UInt64) (now : Nat) : Engine × Bool :=
  let table := e.connections.get f
  match table.lookup? key, table.hit? key octets now with
  | some (d, entry), some table =>
    let routes := e.routes.modify (entry.connection.tuple d).routeId fun r => { r with hits := r.hits + 1 }
    ({ e.withConnections f table with routes }, true)
  | _, _ => (e, false)

/-! ## Clients -/

/-- A client's back-channel from now on. -/
def registerClient (e : Engine) (c : ClientId) (backChannel : SocketAddress) : Engine :=
  { e with subscribers := e.subscribers.register c backChannel }.noteSizes

/-- Forgets a client, which no longer holds the lock. -/
def unregisterClient (e : Engine) (c : ClientId) : Engine :=
  { e with subscribers := e.subscribers.unregister c, session := e.session.releaseFor c }.noteSizes

/-- Leaves a client out of what is broadcast. -/
def markUnreachable (e : Engine) (c : ClientId) : Engine :=
  { e with subscribers := e.subscribers.markUnreachable c }

/-- An event of the health monitor for every subscriber. -/
def health (e : Engine) (event : Wire.HealthEvent) : List Notification :=
  e.subscribers.broadcast { kind := .command, code := Command.healthEvent.code, payload := event.encode }

/-- Takes the lock for a part of the host itself. -/
def acquire (e : Engine) (c : ClientId) : Except Status Engine :=
  (e.session.lock c).map fun session => { e with session }

/-- Gives the lock back for a part of the host itself, if the client still holds
it. -/
def release (e : Engine) (c : ClientId) : Engine := { e with session := e.session.releaseFor c }

/-- Takes no more commands. Clients are forgotten; the tables stay. -/
def shutdown (e : Engine) : Engine :=
  if e.running then
    { e with running := false, subscribers := .empty, session := .free }.noteSizes
  else e

end Engine

end ControlPlane
