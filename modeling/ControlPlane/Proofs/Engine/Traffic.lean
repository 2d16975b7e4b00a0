/-
What is counted of packets.

A packet of a connection is counted for the direction that it belongs to and for the route
that it crosses. A route starts from none, so it counts the packets that crossed it since
its registration (`hits_run`). A direction goes on from what the record of the registration
said, so it counts its packets just when the record said that there were none
(`packets_counted`); a record may say anything (`carried_counts`).
-/
import ControlPlane.Proofs.Engine.Balance
import ControlPlane.Proofs.Engine.Course
import ControlPlane.Proofs.Engine.Crossing

namespace ControlPlane

namespace Wire

/-- What is counted of packets of some sizes. -/
def Traffic.ofPackets (sizes : List UInt64) : Traffic :=
  ⟨.ofNat sizes.length, .ofNat (sizes.map UInt64.toNat).sum⟩

/-- What is counted of a direction. -/
def Connection.traffic (c : Connection) : Direction → Traffic
  | .orig => c.origTraffic
  | .reply => c.replyTraffic

theorem Traffic.foldl_add (sizes : List UInt64) (t : Traffic) :
    sizes.foldl .add t = ⟨t.hits + (ofPackets sizes).hits, t.octets + (ofPackets sizes).octets⟩ := by
  induction sizes generalizing t with
  | nil => simp [ofPackets]
  | cons size sizes ih =>
    have hits : (ofPackets (size :: sizes)).hits = 1 + (ofPackets sizes).hits := by
      rw [UInt32.add_comm]
      exact UInt32.ofNat_add ..
    have octets : (ofPackets (size :: sizes)).octets = size + (ofPackets sizes).octets := by
      show UInt64.ofNat (size.toNat + _) = _
      rw [UInt64.ofNat_add, UInt64.ofNat_toNat]
      rfl
    rw [List.foldl_cons, ih, hits, octets, ← UInt32.add_assoc, ← UInt64.add_assoc]
    rfl

/-- Counts that go on from others are those of the packets alone just when the others are
none. -/
theorem Traffic.foldl_add_eq_iff (sizes : List UInt64) (t : Traffic) :
    sizes.foldl .add t = ofPackets sizes ↔ t = .zero := by
  rw [foldl_add]
  constructor
  · intro same
    have hits : t.hits = 0 := UInt32.add_eq_right.1 (congrArg Traffic.hits same)
    have octets : t.octets = 0 := UInt64.add_eq_right.1 (congrArg Traffic.octets same)
    cases t
    cases hits
    cases octets
    rfl
  · rintro rfl
    simp [zero]

end Wire

namespace Engine

open Wire (Message)

variable {e start : Engine} {event : Event} {history : List Event} {now seq : Nat} {f : Family} {d : Direction}
  {c : Wire.Connection} {entry : Tracked} {r : Route}

/-! ## Directions -/

/-- The sizes of the packets of a connection's direction in a history. -/
def packets (e : Engine) (f : Family) (seq : Nat) (d : Direction) (history : List Event) : List UInt64 :=
  (e.touches f seq history).filterMap (Touch.octets? d)

theorem traffic_replay (touches : List Touch) (entry : Tracked) (d : Direction) :
    (Touch.replay touches entry).connection.traffic d =
      (touches.filterMap (Touch.octets? d)).foldl .add (entry.connection.traffic d) := by
  rw [Touch.replay_eq]
  cases d <;> rfl

/-- What is counted of a direction goes on from what the registered record said. -/
theorem traffic_of_accepted (h : e.accepted? event = some (.register, c, now)) {after : List Event}
    (stored : (((e.step event).1.run after).connections.get c.family).get?
      (e.connections.get c.family).connections.next = some entry) (d : Direction) :
    entry.connection.traffic d =
      ((e.step event).1.packets c.family (e.connections.get c.family).connections.next d after).foldl .add
        (c.traffic d) := by
  rw [replay_of_accepted h stored, traffic_replay]
  rfl

/-! ## Routes -/

/-- One for a packet that is forwarded through a route, none for anything else. -/
def crosses (id : UInt32) (e : Engine) (event : Event) : Nat := if e.crossed? event = some id then 1 else 0

theorem hits_step (h : e.routes.Indexed) {old : Route} (stored : e.routes.routes.get? seq = some old) :
    (if (e.crossed? event).bind e.routes.byId.get? = some seq then { old with hits := old.hits + 1 } else old) =
      { old with hits := old.hits + .ofNat (e.crosses old.id event) } := by
  have leads : (e.crossed? event).bind e.routes.byId.get? = some seq ↔ e.crossed? event = some old.id := by
    rw [Option.bind_eq_some_iff]
    constructor
    · rintro ⟨id, crossed, leads⟩
      obtain ⟨r, there, rfl⟩ := (h id seq).1 leads
      cases stored.symm.trans there
      exact crossed
    · intro crossed
      exact ⟨old.id, crossed, (h old.id seq).2 ⟨old, stored, rfl⟩⟩
  rw [crosses]
  by_cases crossed : e.crossed? event = some old.id
  · rw [if_pos (leads.2 crossed), if_pos crossed]
    rfl
  · rw [if_neg fun it => crossed (leads.1 it), if_neg crossed]
    simp

/-- What is stored under a number that was given out before was stored then, and counts
the packets that crossed it. -/
theorem hits_run (h : e.Reachable) (history : List Event) (issued : seq ≤ e.routes.routes.last)
    (stored : (e.run history).routes.routes.get? seq = some r) :
    ∃ old, e.routes.routes.get? seq = some old ∧
      r = { old with hits := old.hits + .ofNat (e.total (crosses old.id) history) } := by
  induction history generalizing e with
  | nil => exact ⟨r, stored, by simp [total]⟩
  | cons event history ih =>
    obtain ⟨mid, between, rfl⟩ := ih (h.step event) (Nat.le_trans issued (routes_grow e event).last_le) stored
    cases step_routeArises between with
    | registered _ _ _ number _ =>
      have fresh : seq = e.routes.routes.last + 1 := number
      omega
    | @kept old before he =>
      rw [hits_step h.sound.ids before] at he
      subst he
      refine ⟨old, before, ?_⟩
      simp only [total, UInt32.ofNat_add, UInt32.add_assoc]

/-- A route that is registered has counted no packet yet. -/
theorem hits_of_registered (h : e.Reachable) {history : List Event} {record : Wire.Route} {egress : Interface}
    {owner : Option ClientId} (born : e.routes.routes.get? seq = some (.registered record f egress owner))
    (stored : (e.run history).routes.routes.get? seq = some r) :
    r.id = record.id ∧ r.hits = .ofNat (e.total (crosses r.id) history) := by
  obtain ⟨old, there, rfl⟩ := hits_run h history (Sequenced.le_last born) stored
  rw [born] at there
  cases there
  exact ⟨rfl, UInt32.zero_add _⟩

/-- What is stored was stored at the start, or is registered by the history. -/
theorem admits_of_stored (stored : (e.run history).routes.routes.get? seq = some r) :
    (∃ before event after client record family egress, history = before ++ event :: after ∧
      (e.run before).Admits event client record ∧ seq = (e.run before).routes.routes.next ∧
      ((e.run before).step event).1.routes.routes.get? seq =
        some (.registered record family egress (some client))) ∨
      ∃ old, e.routes.routes.get? seq = some old := by
  induction history generalizing e with
  | nil => exact .inr ⟨r, stored⟩
  | cons event history ih =>
    obtain ⟨before, event', after, client, record, family, egress, rfl, admitted, number, born⟩ | ⟨mid, between⟩ :=
      ih stored
    · exact .inl ⟨event :: before, event', after, client, record, family, egress, rfl, admitted, number, born⟩
    · cases step_routeArises between with
      | registered admitted _ _ number made =>
        exact .inl ⟨[], event, history, _, _, _, _, rfl, admitted, number, made ▸ between⟩
      | kept before _ => exact .inr ⟨_, before⟩

/-! ## Main result -/

/-- **What is counted of packets.** Each direction of a stored connection counts the packets
that belonged to it since the connection was registered, and their octets, on top of what
the registered record said; so it counts these packets alone just when the record said that
there were none. A stored route counts the packets that crossed it since it was
registered. -/
theorem packets_counted {config : Config} {start : Engine} (fresh : ofConfig config = .ok start)
    (history : List Event) :
    let e := start.run history
    (∀ f seq entry, (e.connections.get f).get? seq = some entry →
      ∃ before event after c now, history = before ++ event :: after ∧
        (start.run before).accepted? event = some (.register, c, now) ∧ c.family = f ∧
        seq = ((start.run before).connections.get f).connections.next ∧
        ∀ d, let sizes := ((start.run before).step event).1.packets f seq d after
          (entry.connection.traffic d).hits = (c.traffic d).hits + .ofNat sizes.length ∧
            (entry.connection.traffic d).octets = (c.traffic d).octets + .ofNat (sizes.map UInt64.toNat).sum ∧
            (entry.connection.traffic d = .ofPackets sizes ↔ c.traffic d = .zero)) ∧
      ∀ seq r, e.routes.routes.get? seq = some r →
        ∃ before event after client record, history = before ++ event :: after ∧
          (start.run before).Admits event client record ∧ record.id = r.id ∧
          seq = (start.run before).routes.routes.next ∧
          r.hits = .ofNat (((start.run before).step event).1.total (crosses r.id) after) := by
  intro e
  constructor
  · intro f seq entry stored
    obtain ⟨c, before, event, after, now, rfl, accepted, rfl, rfl⟩ := registered_of_stored fresh stored
    refine ⟨before, event, after, c, now, rfl, accepted, rfl, rfl, fun d => ?_⟩
    have counted := traffic_of_accepted accepted (by rwa [← run_cons, ← run_append]) d
    intro sizes
    rw [counted]
    refine ⟨?_, ?_, Wire.Traffic.foldl_add_eq_iff sizes _⟩
    · rw [Wire.Traffic.foldl_add]
      rfl
    · rw [Wire.Traffic.foldl_add]
      rfl
  · intro seq r stored
    obtain ⟨before, event, after, client, record, family, egress, rfl, admitted, number, born⟩ | ⟨old, there⟩ :=
      admits_of_stored stored
    · have reachable : ((start.run before).step event).1.Reachable := ((Reachable.start fresh).run before).step event
      obtain ⟨same, counted⟩ := hits_of_registered reachable born (by rwa [← run_cons, ← run_append])
      exact ⟨before, event, after, client, record, rfl, admitted, same.symm, number, counted⟩
    · obtain ⟨_, -, rfl⟩ := ofConfig_eq_ok fresh
      cases there

/-- A route, a connection through it both ways, and what `touching` holds. -/
def Small.counting : List Event :=
  [Small.send .route .register (.route (Small.route 7)),
    Small.send (.connection .v4) .register (.connection (Small.connection 1000 7 7))] ++ Small.touching

/-- The one packet is counted, and what the record of the update says is not. -/
theorem packets_counted_small :
    let start := Small.start
    let e := start.run Small.counting
    ofConfig Small.config = .ok start ∧
      (∃ entry, (e.connections.get .v4).get? 1 = some entry ∧ entry.connection.traffic .orig = ⟨1, 100⟩ ∧
        ∃ before event after c now, Small.counting = before ++ event :: after ∧
          (start.run before).accepted? event = some (.register, c, now) ∧
          ∀ d, entry.connection.traffic d = .ofPackets (((start.run before).step event).1.packets .v4 1 d after) ↔
            c.traffic d = .zero) ∧
      ∃ r, e.routes.routes.get? 1 = some r ∧ r.hits = 1 ∧
        ∃ before event after, Small.counting = before ++ event :: after ∧
          r.hits = .ofNat (((start.run before).step event).1.total (crosses r.id) after) := by
  dsimp only
  obtain ⟨connections, routes⟩ := @packets_counted Small.config Small.start rfl Small.counting
  have counted : (((Small.start.run Small.counting).connections.get .v4).get? 1).map (·.connection.traffic .orig) =
      some ⟨1, 100⟩ := by decide +kernel
  have crossed : ((Small.start.run Small.counting).routes.routes.get? 1).map (·.hits) = some 1 := by decide +kernel
  obtain ⟨entry, stored, traffic⟩ := Option.map_eq_some_iff.1 counted
  obtain ⟨r, there, hits⟩ := Option.map_eq_some_iff.1 crossed
  obtain ⟨before, event, after, c, now, split, accepted, -, -, directions⟩ := connections .v4 1 entry stored
  obtain ⟨before', event', after', _, _, split', -, -, -, total⟩ := routes 1 r there
  refine ⟨rfl, ⟨entry, stored, traffic, before, event, after, c, now, split, accepted, ?_⟩, r, there, hits, before',
    event', after', split', ?_⟩
  · intro d
    exact (directions d).2.2
  · exact total

/-- A record may say that there were packets before any is counted, and is stored so. -/
theorem carried_counts :
    let e := Small.start.run [Small.send .route .register (.route (Small.route 7))]
    let c := { Small.connection 1000 7 7 with origTraffic := ⟨5, 500⟩ }
    let event := Small.send (.connection .v4) .register (.connection c)
    e.Reachable ∧ e.accepted? event = some (.register, c, 0) ∧
      ((e.step event).1.connections.get .v4).get? 1 = some ⟨c, 0, 0⟩ ∧
      (e.step event).1.packets .v4 1 .orig [] = [] ∧ c.traffic .orig ≠ .ofPackets [] := by
  intro e c event
  refine ⟨⟨Small.config, Small.start, _, rfl, rfl⟩, ?_, ?_, rfl, ?_⟩
  · decide +kernel
  · decide +kernel
  · decide

end Engine

end ControlPlane
