/-
What one packet changes.

A packet's key is looked up twice, once for the route and once for the connection. As the
index of flows is exact and a forwarded direction has its route, both come to the same
direction of one connection, and to a route that is there (`Sound.account_of_stored`). So a
packet is known just when some connection forwards a direction under its key, and it
changes that connection and that route in place, and nothing else (`packet_accounted`).
-/
import ControlPlane.Proofs.Engine.Traffic

namespace ControlPlane

/-- It only matters what a change makes of the entry that is there. -/
theorem Sequenced.modify_congr {α : Type} {s : Sequenced α} {seq : Nat} {a : α} {f g : α → α}
    (stored : s.get? seq = some a) (same : f a = g a) : s.modify seq f = s.modify seq g := by
  refine ext_entries ?_ rfl
  rw [entries_modify_eq, entries_modify_eq, amended, amended]
  refine List.filterMap_congr fun x hx => ?_
  split
  · next number =>
    have there : s.get? x.1 = some x.2 := mem_entries_iff.1 hx
    rw [number, stored, Option.some.injEq] at there
    rw [← there, same]
  · rfl

/-- A connection and what it is after one more packet of a direction. The packets of a
direction are counted in 32 bits, their octets in 64. -/
structure Wire.Connection.Counted (c : Wire.Connection) (d : Direction) (octets : UInt64)
    (c' : Wire.Connection) : Prop where
  hits : (c'.traffic d).hits.toNat = ((c.traffic d).hits.toNat + 1) % UInt32.size
  octets : (c'.traffic d).octets.toNat = ((c.traffic d).octets.toNat + octets.toNat) % UInt64.size
  other : ∀ d', d' ≠ d → c'.traffic d' = c.traffic d'
  rest : c' = { c with origTraffic := c'.origTraffic, replyTraffic := c'.replyTraffic }

theorem Wire.Connection.counted_hit (c : Wire.Connection) (d : Direction) (octets : UInt64) :
    c.Counted d octets (c.hit d octets) := by
  have counted : (c.hit d octets).traffic d = (c.traffic d).add octets := by
    cases d <;> rfl
  constructor
  case hits =>
    rw [counted]
    exact UInt32.toNat_add ..
  case octets =>
    rw [counted]
    exact UInt64.toNat_add ..
  case other =>
    intro d' other
    cases d <;> cases d' <;> first | rfl | exact absurd rfl other
  case rest => cases d <;> rfl

/-- A route and what it is after one more packet. -/
structure Route.Crossed (r r' : Route) : Prop where
  hits : r'.hits.toNat = (r.hits.toNat + 1) % UInt32.size
  rest : r' = { r with hits := r'.hits }

theorem Route.crossed (r : Route) : r.Crossed { r with hits := r.hits + 1 } where
  hits := UInt32.toNat_add ..
  rest := rfl

namespace Engine

variable {e : Engine} {f : Family} {key : FlowKey} {octets : UInt64} {seq now : Nat} {entry : Tracked}
  {d : Direction}

/-- The connection at a number and the route at a number in place of what they were. -/
def replaced (e : Engine) (f : Family) (seq : Nat) (entry : Tracked) (n : Nat) (r : Route) : Engine :=
  let table := e.connections.get f
  { e with
    connections := e.connections.set f { table with connections := table.connections.modify seq fun _ => entry }
    routes := { e.routes with routes := e.routes.routes.modify n fun _ => r } }

/-- A packet of a direction that a connection forwards is counted for both the connection
and the direction's route. -/
theorem Sound.account_of_stored (h : e.Sound) (stored : (e.connections.get f).get? seq = some entry)
    (forwards : entry.connection.forwards d = true) (named : entry.connection.key d = key) (octets : UInt64)
    (now : Nat) :
    ∃ n r, e.routes.routes.get? n = some r ∧ r.id = (entry.connection.tuple d).routeId ∧ r.family = f ∧
      e.account f key octets now =
        (e.replaced f seq { entry with connection := entry.connection.hit d octets, seen := now } n
          { r with hits := r.hits + 1 }, true) := by
  have leads : (e.connections.get f).flows.get? key = some (seq, d) :=
    (h.flows f key seq d).2 ⟨entry, stored, forwards, named⟩
  obtain ⟨r, found, family⟩ := routeServes_iff.1 (h.served f seq entry stored d forwards)
  obtain ⟨n, known, there⟩ := Option.bind_eq_some_iff.1 found
  obtain ⟨-, id⟩ := h.ids.get?_eq_some_iff.1 found
  refine ⟨n, r, there, id, family, ?_⟩
  obtain ⟨looked, -⟩ | ⟨seq', d', entry', leads', stored', counted⟩ := account_cases e f key octets now
  · rw [ConnectionTable.lookup?_eq_some.2 ⟨seq, leads, stored⟩] at looked
    cases looked
  · cases leads.symm.trans leads'
    cases stored.symm.trans stored'
    -- Both are changed in place, by what they were.
    have connections := Sequenced.modify_congr stored
      (f := fun entry => { entry with connection := entry.connection.hit d octets, seen := now })
      (g := fun _ => { entry with connection := entry.connection.hit d octets, seen := now }) rfl
    have routes := Sequenced.modify_congr there
      (f := fun r => { r with hits := r.hits + 1 }) (g := fun _ => { r with hits := r.hits + 1 }) rfl
    rw [counted]
    simp only [RouteTable.modify, known, routes, ConnectionTable.modify, connections]
    rfl

/-- A packet is known when it belongs to a connection. -/
theorem snd_account (e : Engine) (f : Family) (key : FlowKey) (octets : UInt64) (now : Nat) :
    (e.account f key octets now).2 = ((e.connections.get f).lookup? key).isSome := by
  obtain ⟨looked, missed⟩ | ⟨seq, d, entry, leads, stored, counted⟩ := account_cases e f key octets now
  · rw [missed, looked, Option.isSome_none]
  · rw [counted, ConnectionTable.lookup?_eq_some.2 ⟨seq, leads, stored⟩, Option.isSome_some]

/-! ## Main result -/

/-- **A packet counts for one direction and its route.** In a reachable engine a packet is
known just when a stored connection of the family forwards a direction under its key. Then
that direction has one packet more and its octets, the connection was seen now, and the
route that the direction names, which is stored and of the family, has one packet more;
nothing else is changed. A packet that is not known changes nothing. -/
theorem packet_accounted {e : Engine} (h : e.Reachable) (f : Family) (key : FlowKey) (octets : UInt64) (now : Nat) :
    let table := e.connections.get f
    let counted := (e.account f key octets now).1
    let known := (e.account f key octets now).2
    (known = true ↔ table.Forwards key) ∧
      (known = false → counted = e) ∧
      ∀ seq entry d, table.get? seq = some entry → entry.connection.forwards d = true →
        entry.connection.key d = key →
          ∃ c n r r', entry.connection.Counted d octets c ∧
            e.routes.routes.get? n = some r ∧ r.id = (entry.connection.tuple d).routeId ∧ r.family = f ∧
            r.Crossed r' ∧ counted = e.replaced f seq { entry with connection := c, seen := now } n r' := by
  intro table counted known
  have sound := h.sound
  refine ⟨?_, ?_, ?_⟩
  · rw [← (sound.flows f).lookup?_isSome_iff, ← snd_account e f key octets now]
  · intro unknown
    obtain ⟨-, missed⟩ | ⟨_, _, _, -, -, there⟩ := account_cases e f key octets now
    · exact congrArg Prod.fst missed
    · have yes : known = true := congrArg Prod.snd there
      rw [yes] at unknown
      cases unknown
  · intro seq entry d stored forwards named
    obtain ⟨n, r, there, id, family, account⟩ := sound.account_of_stored stored forwards named octets now
    exact ⟨_, n, r, _, entry.connection.counted_hit d octets, there, id, family, r.crossed, congrArg Prod.fst account⟩

namespace Small

/-- A connection whose counts of the reply direction are as high as they can be. -/
def brimful : Wire.Connection :=
  { connection 1000 7 7 with replyTraffic := ⟨0xFFFFFFFF, 0xFFFFFFFFFFFFFFFF⟩ }

def overflowing : List Event :=
  [send .route .register (.route (route 7)), send (.connection .v4) .register (.connection brimful)]

end Small

/-- One packet of ten octets back, and both counts of the direction start again. -/
theorem packet_accounted_small :
    let e := Small.start.run Small.overflowing
    let counted := (e.account .v4 (Small.brimful.key .reply) 10 5).1
    e.Reachable ∧ (e.connections.get .v4).get? 1 = some ⟨Small.brimful, 0, 0⟩ ∧
      (e.account .v4 (Small.brimful.key .reply) 10 5).2 = true ∧
      (∃ c n r, c.traffic .orig = ⟨0, 0⟩ ∧ (c.traffic .reply).hits.toNat = 0 ∧ (c.traffic .reply).octets.toNat = 9 ∧
        counted = e.replaced .v4 1 ⟨c, 0, 5⟩ n r) ∧
      (counted.routes.get? 7).map (·.hits) = some 1 ∧
      (e.account .v6 (Small.brimful.key .reply) 10 5).1 = e := by
  intro e counted
  have reachable : e.Reachable := ⟨Small.config, Small.start, Small.overflowing, rfl, rfl⟩
  have stored : (e.connections.get .v4).get? 1 = some ⟨Small.brimful, 0, 0⟩ := by decide +kernel
  obtain ⟨known, -, changed⟩ := packet_accounted reachable .v4 (Small.brimful.key .reply) 10 5
  obtain ⟨-, same, -⟩ := packet_accounted reachable .v6 (Small.brimful.key .reply) 10 5
  obtain ⟨c, n, r, r', counts, -, -, -, -, account⟩ := changed 1 _ .reply stored rfl rfl
  refine ⟨reachable, stored, ?_, ⟨c, n, r', ?_, ?_, ?_, account⟩, by decide +kernel, same (by decide +kernel)⟩
  · exact known.2 ⟨_, ConnectionTable.mem_values_iff.2 ⟨1, stored⟩, .reply, rfl, rfl⟩
  · exact counts.other .orig (by decide)
  · exact counts.hits
  · exact counts.octets

end Engine

end ControlPlane
