/-
Records under the code that carries them.

Writing takes any record under any code. Reading goes by the code alone: the
payload has the size of the code's record, and its fields are read in the code's
layout.
-/
import ControlPlane.Wire.Message
import ControlPlane.Wire.Route
import ControlPlane.Wire.Connection
import ControlPlane.Wire.Interface
import ControlPlane.Wire.IdleTimeout
import ControlPlane.Wire.HealthEvent

namespace ControlPlane.Wire

/-- What the payload of a command or an event says. -/
inductive Record where
  | route (r : Route)
  | connection (c : Connection)
  | interface (i : Interface)
  | idleTimeout (t : IdleTimeout)
  | health (e : HealthEvent)
  /-- The command has no record. -/
  | empty
  deriving DecidableEq

namespace Record

/-- The octets of a record. An action is written where the record has a place
for one. -/
def payload (action : Action) : Record → Bytes
  | route r => r.encode action
  | connection c => c.encode action
  | interface i => i.encode action
  | idleTimeout t => t.encode
  | health e => e.encode
  | empty => []

/-- A command message with a record. -/
def encode (code : UInt16) (action : Action) (r : Record) : Except Error Message :=
  Message.ofPayload .command code (r.payload action)

/-- The record that a command's payload spells. -/
def ofPayload (command : Command) (bs : Bytes) : Except Error Record :=
  match command with
  | .route => (Route.decode bs).map route
  | .connection f | .connectionChange f => (Connection.decode f bs).map connection
  | .interface => (Interface.decode bs).map interface
  | .setTimeout => (IdleTimeout.decode bs).map idleTimeout
  | .healthEvent => (HealthEvent.decode bs).map health
  | .lockSession | .unlockSession | .reset _ => .ok empty

/-- The number of the action and the record that a message carries. -/
def decode (m : Message) : Except Error (Option UInt16 × Record) :=
  match Command.ofCode? m.code with
  | none => .error (.parse (.unknownCommand m.code))
  | some command =>
    if m.payload.length ≠ command.recordSize then
      .error (.malformedRecord m.code command.recordSize m.payload.length)
    else
      (ofPayload command m.payload).map fun r => (if command.hasAction then m.action? else none, r)

end Record

end ControlPlane.Wire
