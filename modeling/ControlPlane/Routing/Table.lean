/-
Routes, in order of registration, and an index of their ids.
-/
import ControlPlane.Client.Subscribers
import ControlPlane.Store.Index
import ControlPlane.Store.Sequenced
import ControlPlane.Wire.Route

namespace ControlPlane

/-- A registered route. -/
structure Route where
  id : UInt32
  family : Family
  sourceMac : Mac
  destinationMac : Mac
  /-- Name of the egress interface. -/
  egress : String
  /-- Id of the egress interface. -/
  egressId : UInt32
  nextHop : IpAddress
  mtu : UInt16
  /-- The client that is told when the route goes away. -/
  owner : Option ClientId
  hits : UInt32
  deriving DecidableEq

/-- The route as it is sent. -/
def Route.toWire (r : Route) : Wire.Route :=
  { mtu := r.mtu, sourceMac := r.sourceMac, destinationMac := r.destinationMac, interface := r.egress,
    id := r.id, family := some r.family, nextHop := r.nextHop, hits := r.hits }

structure RouteTable where
  routes : Sequenced Route
  /-- From a route's id to its number. -/
  byId : Index UInt32 Nat

namespace RouteTable

def empty : RouteTable := ⟨.empty, .empty⟩

def size (t : RouteTable) : Nat := t.routes.size

def contains (t : RouteTable) (id : UInt32) : Bool := t.byId.contains id

/-- A new route behind all others; a route with its id stays as it is. -/
def add (t : RouteTable) (r : Route) : Except Status RouteTable :=
  if t.contains r.id then .error .alreadyRegistered
  else .ok { routes := t.routes.push r, byId := t.byId.insert r.id t.routes.next }

/-- Removes a route, which comes with the table. -/
def remove (t : RouteTable) (id : UInt32) : Option Route × RouteTable :=
  match t.byId.get? id with
  | none => (none, t)
  | some seq => (t.routes.get? seq, { routes := t.routes.erase seq, byId := t.byId.erase id })

def get? (t : RouteTable) (id : UInt32) : Option Route := (t.byId.get? id).bind t.routes.get?

/-- Changes the route of an id; nothing when there is none. -/
def modify (t : RouteTable) (id : UInt32) (f : Route → Route) : RouteTable :=
  match t.byId.get? id with
  | none => t
  | some seq => { t with routes := t.routes.modify seq f }

/-- The ids of the routes, or of those of one family. -/
def ids (t : RouteTable) (family : Option Family) : List UInt32 :=
  (t.routes.values.filter fun r => family.all (r.family == ·)).map (·.id)

end RouteTable

end ControlPlane
