/-
The tracked connections of one family, in order of registration.

Each forwarded direction of a connection has an entry in the index of flows,
which leads from a packet's key to the connection and the direction. A direction
that is not forwarded has none, and may share its key with another connection's.
-/
import ControlPlane.Store.Index
import ControlPlane.Store.Sequenced
import ControlPlane.Tracking.Flow
import ControlPlane.Tracking.Timeouts

namespace ControlPlane

/-- A registered connection. Instants are in milliseconds. -/
structure Tracked where
  connection : Wire.Connection
  created : Nat
  /-- The last packet or keep-alive, or the registration. -/
  seen : Nat
  deriving DecidableEq

structure ConnectionTable where
  family : Family
  connections : Sequenced Tracked
  /-- From a packet's key to the connection's number and the direction. -/
  flows : Index FlowKey (Nat × Direction)

namespace ConnectionTable

def empty (f : Family) : ConnectionTable := ⟨f, .empty, .empty⟩

def size (t : ConnectionTable) : Nat := t.connections.size

/-- How many flows are in the index. -/
def flowCount (t : ConnectionTable) : Nat := t.flows.size

def get? (t : ConnectionTable) (seq : Nat) : Option Tracked := t.connections.get? seq

def modify (t : ConnectionTable) (seq : Nat) (f : Tracked → Tracked) : ConnectionTable :=
  { t with connections := t.connections.modify seq f }

/-- Two forwarded directions with one key. -/
def collides (c : Wire.Connection) : Bool := c.directions == .both && c.key .orig == c.key .reply

/-- The index with the forwarded directions of a connection. -/
def link (flows : Index FlowKey (Nat × Direction)) (seq : Nat) (c : Wire.Connection) :
    Index FlowKey (Nat × Direction) :=
  c.forwarded.foldl (fun flows d => flows.insert (c.key d) (seq, d)) flows

/-- The index without the forwarded directions of a connection. A key that leads
to another connection stays. -/
def unlink (flows : Index FlowKey (Nat × Direction)) (seq : Nat) (c : Wire.Connection) :
    Index FlowKey (Nat × Direction) :=
  c.forwarded.foldl
    (fun flows d =>
      match flows.get? (c.key d) with
      | some (owner, _) => if owner = seq then flows.erase (c.key d) else flows
      | none => flows)
    flows

/-- Registers a connection of the table's family, none of whose flows is taken.
Its number comes with the table. -/
def add (t : ConnectionTable) (c : Wire.Connection) (now : Nat) : Except Status (Nat × ConnectionTable) :=
  if c.family ≠ t.family then .error .wrongParam
  else if collides c then .error .wrongParam
  else if c.forwarded.any fun d => t.flows.contains (c.key d) then .error .alreadyRegistered
  else
    let seq := t.connections.next
    .ok (seq, { t with
      connections := t.connections.push { connection := c, created := now, seen := now }
      flows := link t.flows seq c })

/-- The number of the connection that has a tuple as its orig one. A connection
that forwards the orig direction goes first; of the others the oldest is taken. -/
def find? (t : ConnectionTable) (protocol : UInt16) (orig : Wire.Tuple) : Option Nat :=
  let key := FlowKey.ofTuple protocol orig
  match t.flows.get? key with
  | some (seq, .orig) => some seq
  | _ => (t.connections.entries.find? fun e => e.2.connection.key .orig == key).map (·.1)

/-- Removes a connection, which comes with the table. -/
def remove (t : ConnectionTable) (seq : Nat) : Option Tracked × ConnectionTable :=
  match t.get? seq with
  | none => (none, t)
  | some entry =>
    (some entry, { t with
      connections := t.connections.erase seq
      flows := unlink t.flows seq entry.connection })

/-- The connection and the direction of a packet. -/
def lookup? (t : ConnectionTable) (key : FlowKey) : Option (Direction × Tracked) :=
  match t.flows.get? key with
  | none => none
  | some (seq, d) => (t.get? seq).map fun entry => (d, entry)

/-- Counts a packet for its direction and the connection as seen; none for a
packet of no connection. -/
def hit? (t : ConnectionTable) (key : FlowKey) (octets : UInt64) (now : Nat) : Option ConnectionTable :=
  match t.flows.get? key with
  | none => none
  | some (seq, d) =>
    (t.get? seq).map fun _ =>
      t.modify seq fun entry => { entry with connection := entry.connection.hit d octets, seen := now }

/-- Whether a connection forwards a direction through a route. -/
def uses (c : Wire.Connection) (routeId : UInt32) : Bool :=
  c.forwarded.any fun d => (c.tuple d).routeId == routeId

/-- The connections that forward a direction through a route. -/
def usingRoute (t : ConnectionTable) (routeId : UInt32) : List Nat :=
  (t.connections.entries.filter fun e => uses e.2.connection routeId).map (·.1)

/-- The connections that are idle for too long. -/
def expired (t : ConnectionTable) (timeouts : IdleTimeouts) (now : Nat) : List Nat :=
  (t.connections.entries.filter fun e =>
    timeouts.exceeded e.2.connection.protocol e.2.seen now).map (·.1)

/-- No connections; numbers go on from where they were. -/
def clear (t : ConnectionTable) : ConnectionTable :=
  { t with connections := t.connections.clear, flows := .empty }

end ConnectionTable

end ControlPlane
