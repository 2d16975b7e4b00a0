/-
Clients, and those of them that announced a back-channel.

A client is known by the address of its command socket. Events are addressed to
one subscriber (`unicast`) or to all that can still be reached (`broadcast`), in
the order of the clients' addresses.
-/
import ControlPlane.Net.AddressText
import ControlPlane.Store.SortedMap
import ControlPlane.Wire.Message

namespace ControlPlane

/-- A client: the address that its commands come from. -/
structure ClientId where
  address : SocketAddress
  deriving DecidableEq

instance : Ranked ClientId where
  rank c := c.address.rank
  rank_injective {a b} h := by
    cases a; cases b
    exact congrArg ClientId.mk (SocketAddress.rank_injective h)

def ClientId.render (c : ClientId) : String := "client@" ++ c.address.render

/-- What is known of a client with a back-channel. -/
structure Subscriber where
  backChannel : SocketAddress
  /-- False once an event could not be delivered. -/
  reachable : Bool
  deriving DecidableEq

/-- An event on its way to a client. -/
structure Notification where
  client : ClientId
  backChannel : SocketAddress
  message : Wire.Message
  deriving DecidableEq

/-- The subscribers, in the order of their addresses. -/
structure Subscribers where
  table : SortedMap ClientId Subscriber

namespace Subscribers

def empty : Subscribers := ⟨.empty⟩

def size (s : Subscribers) : Nat := s.table.size

def get? (s : Subscribers) (c : ClientId) : Option Subscriber := s.table.get? c

/-- A client's back-channel from now on, which counts as reachable. -/
def register (s : Subscribers) (c : ClientId) (backChannel : SocketAddress) : Subscribers :=
  ⟨s.table.insert c ⟨backChannel, true⟩⟩

def unregister (s : Subscribers) (c : ClientId) : Subscribers := ⟨s.table.erase c⟩

def markUnreachable (s : Subscribers) (c : ClientId) : Subscribers :=
  ⟨s.table.modify c fun sub => { sub with reachable := false }⟩

/-- A message for one client; none for a client without a back-channel. -/
def unicast (s : Subscribers) (c : ClientId) (message : Wire.Message) : Option Notification :=
  (s.get? c).map fun sub => { client := c, backChannel := sub.backChannel, message }

/-- A message for every subscriber that can be reached. -/
def broadcast (s : Subscribers) (message : Wire.Message) : List Notification :=
  s.table.entries.filterMap fun (client, sub) =>
    if sub.reachable then some { client, backChannel := sub.backChannel, message } else none

@[simp] theorem unicast_empty (c : ClientId) (m : Wire.Message) : empty.unicast c m = none := rfl

@[simp] theorem broadcast_empty (m : Wire.Message) : empty.broadcast m = [] := rfl

theorem get?_register (s : Subscribers) (c : ClientId) (backChannel : SocketAddress) (d : ClientId) :
    (s.register c backChannel).get? d = if rank c = rank d then some ⟨backChannel, true⟩ else s.get? d :=
  SortedMap.get?_insert ..

theorem get?_unregister (s : Subscribers) (c d : ClientId) :
    (s.unregister c).get? d = if rank c = rank d then none else s.get? d :=
  SortedMap.get?_erase ..

/-- A message is broadcast to exactly the subscribers that can be reached. -/
theorem mem_broadcast {s : Subscribers} {m : Wire.Message} {n : Notification} :
    n ∈ s.broadcast m ↔ n.message = m ∧ s.get? n.client = some ⟨n.backChannel, true⟩ := by
  simp only [broadcast, List.mem_filterMap, get?]
  constructor
  · rintro ⟨⟨c, b, r⟩, he, h⟩
    cases r
    · simp at h
    · simp only [if_true, Option.some.injEq] at h
      subst h
      exact ⟨rfl, SortedMap.get?_of_mem he⟩
  · rintro ⟨rfl, h⟩
    exact ⟨_, SortedMap.mem_of_get? h, by simp⟩

end Subscribers

end ControlPlane
