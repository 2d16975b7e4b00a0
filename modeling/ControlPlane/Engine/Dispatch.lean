/-
How a message is answered.

A command is checked in a fixed order before anything is done: the engine runs,
the code is known, the record has its size, the action is known, the fields say
something. What comes out is a reply for the sender, and events that are
delivered after it.
-/
import ControlPlane.Engine.Basic

namespace ControlPlane

namespace Engine

/-- What a command comes to. -/
structure Outcome where
  engine : Engine
  reply : Wire.Reply
  events : List Notification

/-- A command that is refused. -/
def refused (e : Engine) (status : Status) : Outcome := ⟨e, .ofStatus status, []⟩

/-- A command that either changes the engine or is refused. -/
def settled (e : Engine) : Except Status Engine → Outcome
  | .ok e' => ⟨e', .ok, []⟩
  | .error status => e.refused status

/-- One step of a listing, which leaves the cursor elsewhere in any case. -/
def listed {α : Type} (table : SortedMap Nat α) (cursor : Cursor) (put : Cursor → Engine) (start : Bool)
    (encode : α → Bytes) : Outcome :=
  match if start then Cursor.first table else cursor.next table with
  | (cursor, .ok a) => ⟨put cursor, ⟨.ok, encode a⟩, []⟩
  | (cursor, .error status) => (put cursor).refused status

def handleRoute (e : Engine) (client : ClientId) (action : Action) (r : Wire.Route) : Outcome :=
  let list (start : Bool) :=
    listed e.routes.routes.table e.cursors.routes
      (fun c => { e with cursors := { e.cursors with routes := c } }) start (·.toWire.encode action)
  match action with
  | .register => e.settled (e.addRoute r (some client))
  | .deregister =>
    let (e, status, events) := e.dropRoute r.id
    ⟨e, .ofStatus status, events⟩
  | .query => list true
  | .queryCont => list false
  | .keepAlive | .removed | .update => e.refused .unknownAction

def handleConnection (e : Engine) (action : Action) (c : Wire.Connection) (now : Nat) : Outcome :=
  let list (start : Bool) :=
    listed (e.connections.get c.family).connections.table (e.cursors.connections.get c.family)
      (fun cursor =>
        { e with
          cursors := { e.cursors with connections := e.cursors.connections.set c.family cursor } })
      start (·.connection.encode action)
  match action with
  | .register => e.settled (e.addConnection c now)
  | .deregister => e.settled (e.removeConnection c)
  | .update => e.settled (e.updateConnection c)
  | .keepAlive => e.settled (e.keepAlive c now)
  | .query => list true
  | .queryCont => list false
  | .removed => e.refused .unknownAction

/-- An interface is changed only for the client that holds the lock. -/
def handleInterface (e : Engine) (client : ClientId) (action : Action) (i : Interface) : Outcome :=
  let list (start : Bool) :=
    listed e.interfaces.interfaces.table e.cursors.interfaces
      (fun c => { e with cursors := { e.cursors with interfaces := c } }) start (·.encode action)
  match action with
  | .update =>
    if e.session.isHeldBy client then
      e.settled ((e.interfaces.update i).map fun interfaces => { e with interfaces })
    else e.refused .wrongSession
  | .query => list true
  | .queryCont => list false
  | .register | .deregister | .keepAlive | .removed => e.refused .unknownAction

/-- Does what a command asks for. Events are not accepted as commands, nor is a
record under the code of another. -/
def perform (e : Engine) (client : ClientId) (command : Command) (action : Option Action)
    (record : Wire.Record) (now : Nat) : Outcome :=
  match command, action, record with
  | .route, some action, .route r => e.handleRoute client action r
  | .connection _, some action, .connection c => e.handleConnection action c now
  | .reset f, _, _ =>
    let (e, events) := e.reset f
    ⟨e, .ok, events⟩
  | .setTimeout, _, .idleTimeout t => e.settled (e.setTimeout t)
  | .lockSession, _, _ => e.settled (e.acquire client)
  | .unlockSession, _, _ => e.settled ((e.session.unlock client).map fun session => { e with session })
  | .interface, some action, .interface i => e.handleInterface client action i
  | _, _, _ => e.refused .unknownCommand

/-- The action that a message of a command must have; none where the record has
no place for one. -/
def requiredAction (command : Command) (m : Wire.Message) : Except Status (Option Action) :=
  if command.hasAction then
    match m.action? with
    | none => .error .wrongSize
    | some n =>
      match Action.ofNumber? n with
      | none => .error .unknownAction
      | some action => .ok (some action)
  else .ok none

/-- The status of a message whose record says nothing. -/
def statusOfDecodeError : Error → Status
  | .malformedRecord .. => .wrongSize
  | _ => .wrongParam

/-- Checks a command, then does what it asks for. -/
def execute (e : Engine) (client : ClientId) (m : Wire.Message) (now : Nat) : Outcome :=
  match Command.ofCode? m.code with
  | none => e.refused .unknownCommand
  | some command =>
    if m.payload.length ≠ command.recordSize then e.refused .wrongSize
    else
      match requiredAction command m with
      | .error status => e.refused status
      | .ok action =>
        match Wire.Record.decode m with
        | .error error => e.refused (statusOfDecodeError error)
        | .ok (_, record) => e.perform client command action record now

/-- What a message of any kind comes to, before it is counted. -/
def handle (e : Engine) (client : ClientId) (m : Wire.Message) (now : Nat) : Outcome :=
  if e.running then
    match m.kind with
    | .register =>
      match Wire.Registration.decode m.payload with
      | .ok backChannel => ⟨e.registerClient client backChannel, .ok, []⟩
      | .error _ => e.refused .wrongSize
    | .unregister => ⟨e.unregisterClient client, .ok, []⟩
    | .command =>
      let o := e.execute client m now
      { o with engine := o.engine.noteSizes }
  else e.refused .internalFailure

/-- Answers a message of a client, and counts it under its code. -/
def dispatch (e : Engine) (client : ClientId) (m : Wire.Message) (now : Nat) : Outcome :=
  let o := e.handle client m now
  { o with
    engine := { o.engine with metrics := o.engine.metrics.answered m.code o.reply.status.isOk } }

/-- Answers a datagram: an outcome under the code of its message, or the fault of
a datagram that is no message, which is counted. -/
def receive (e : Engine) (client : ClientId) (datagram : Bytes) (now : Nat) :
    Engine × Except Error (Wire.Message × List Notification) :=
  match Wire.Message.decode datagram with
  | .error error => (e.count .malformed 1, .error error)
  | .ok m =>
    let o := e.dispatch client m now
    (o.engine, .ok (o.reply.toMessage m.code, o.events))

end Engine

end ControlPlane
