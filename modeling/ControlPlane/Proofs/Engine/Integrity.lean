/-
The tables of an engine agree, whatever happened to it.

Three facts hold of a new engine and are kept by every single change to it, so they
hold of every reachable one (`Reachable.sound`): both indices are exact, and a forwarded
direction names a route that is stored and of its family.
-/
import ControlPlane.Proofs.Engine.Change
import ControlPlane.Proofs.Tracking.FlowIndex

namespace ControlPlane.Engine

/-- The indices are exact, and every forwarded direction has a route of its
family. -/
structure Sound (e : Engine) : Prop where
  ids : e.routes.Indexed
  flows : ∀ f, (e.connections.get f).Exact
  served : ∀ f seq entry, (e.connections.get f).get? seq = some entry →
    ∀ d, entry.connection.forwards d = true → e.routeServes f (entry.connection.tuple d).routeId = true

variable {e e' : Engine} {f : Family} {id : UInt32}

theorem routeServes_iff : e.routeServes f id = true ↔ ∃ r, e.routes.get? id = some r ∧ r.family = f := by
  simp [routeServes, Option.any_eq_true]

theorem sound_ofConfig {config : Config} (h : ofConfig config = .ok e) : e.Sound := by
  obtain ⟨interfaces, -, rfl⟩ := ofConfig_eq_ok h
  refine ⟨RouteTable.indexed_empty, fun f => ?_, fun f seq entry he => ?_⟩
  · cases f <;> exact ConnectionTable.exact_empty _
  · cases f <;> cases he

/-- Sound with other routes, when these serve the forwarded directions. -/
theorem Sound.withRoutes {t : RouteTable} (h : e.Sound) (hi : t.Indexed)
    (hs : ∀ f id r, (e.connections.get f).usingRoute id ≠ [] → e.routes.get? id = some r →
      ∃ r', t.get? id = some r' ∧ r'.family = r.family) : Sound { e with routes := t } := by
  refine ⟨hi, h.flows, fun f seq entry he d hd => ?_⟩
  obtain ⟨r, hr, hf⟩ := routeServes_iff.1 (h.served f seq entry he d hd)
  have used : (e.connections.get f).usingRoute (entry.connection.tuple d).routeId ≠ [] := fun hu =>
    ConnectionTable.usingRoute_eq_nil_iff.1 hu seq entry he d hd rfl
  obtain ⟨r', hr', hf'⟩ := hs f _ r used hr
  exact routeServes_iff.2 ⟨r', hr', hf'.trans hf⟩

/-- Sound with another table of a family, when the routes serve its forwarded
directions. -/
theorem Sound.withConnections {t : ConnectionTable} (h : e.Sound) (hx : t.Exact)
    (hs : ∀ seq entry, t.get? seq = some entry → ∀ d, entry.connection.forwards d = true →
      e.routeServes f (entry.connection.tuple d).routeId = true) : (e.withConnections f t).Sound := by
  refine ⟨h.ids, fun g => ?_, fun g seq entry he => ?_⟩
  · rw [get_withConnections]
    split
    · exact hx
    · exact h.flows g
  · rw [get_withConnections] at he
    split at he
    · next hg => exact hg ▸ hs seq entry he
    · exact h.served g seq entry he

theorem Sound.edit (he : Edit e e') (h : e.Sound) : e'.Sound := by
  cases he with
  | note m => exact ⟨h.ids, h.flows, h.served⟩
  | addRoute _ _ ht =>
    refine h.withRoutes (h.ids.add ht) fun f id r _ hr => ⟨r, ?_, rfl⟩
    rw [h.ids.get?_add ht, if_neg (RouteTable.id_ne_of_add ht hr), hr]
  | @removeRoute id hu =>
    refine h.withRoutes (h.ids.remove id) fun f id' r used hr => ⟨r, ?_, rfl⟩
    have ne : id ≠ id' := fun he => used (he ▸ hu f)
    rw [h.ids.get?_remove, if_neg ne, hr]
  | hitRoute id =>
    have indexed := h.ids.modify (f := fun r => { r with hits := r.hits + 1 }) (fun _ => rfl) id
    refine h.withRoutes indexed fun f id' r _ hr => ?_
    rw [h.ids.get?_modify, hr]
    split
    · exact ⟨_, rfl, rfl⟩
    · exact ⟨r, rfl, rfl⟩
  | @addConnection f c now n t hs ht =>
    refine h.withConnections ((h.flows f).add ht) fun seq entry he d hd => ?_
    rw [ConnectionTable.get?_add ht] at he
    split at he
    · cases he
      exact hs d hd
    · exact h.served f seq entry he d hd
  | removeConnection f n =>
    refine h.withConnections ((h.flows f).remove n) fun seq entry he d hd => ?_
    rw [ConnectionTable.get?_remove] at he
    split at he
    · cases he
    · exact h.served f seq entry he d hd
  | @editConnection f n g hg =>
    refine h.withConnections ((h.flows f).modify hg n) fun seq entry he d hd => ?_
    -- The connection it was before has the same directions and routes.
    have same := (e.connections.get f).identity_modify hg n seq
    rw [he, Option.map_some, eq_comm, Option.map_eq_some_iff] at same
    obtain ⟨before, hb, hi⟩ := same
    rw [← Tracked.tuple_of_identity hi]
    exact h.served f seq before hb d (by rw [Tracked.forwards_of_identity hi, hd])
  | clearConnections f =>
    exact h.withConnections (ConnectionTable.exact_clear _) fun seq entry he => nomatch he
  | setFlags _ => exact ⟨h.ids, h.flows, h.served⟩

theorem Sound.change (hc : Change e e') (h : e.Sound) : e'.Sound := by
  cases hc with
  | edit he => exact h.edit he
  | beside hr hc hi =>
    refine ⟨hr ▸ h.ids, hc ▸ h.flows, fun f seq entry he d hd => ?_⟩
    have := h.served f seq entry (hc ▸ he) d hd
    rwa [routeServes, hr]

/-- Every reachable engine is sound. -/
theorem Reachable.sound (h : e.Reachable) : e.Sound :=
  h.keeps (fun _ _ => sound_ofConfig) fun _ _ => Sound.change

/-! ## A small engine -/

namespace Small

/-- Two interfaces of which only the names are given. -/
def config : Config := { Config.standard with interfaces := [.named "eth0", .named "eth1"] }

def client : ClientId := ⟨{ ip := .v4 0x7F000001, port := 7000 }⟩

/-- A command with a record. -/
def message (command : Command) (action : Action) (r : Wire.Record) : Wire.Message :=
  { kind := .command, code := command.code, payload := r.payload action }

/-- The client sends a command. -/
def send (command : Command) (action : Action) (r : Wire.Record) : Event :=
  .message client (message command action r) 0

/-- An IPv4 route through the first interface. -/
def route (id : UInt32) : Wire.Route :=
  { Wire.Route.ofId id with family := some .v4, interface := "eth0" }

/-- An IPv4 connection through a route there and a route back. -/
def connection (port : UInt16) (there back : UInt32) : Wire.Connection :=
  let orig := Wire.Tuple.ofEndpoints (.v4 0x0A000001) (.v4 0x0A000002) port 80
  Wire.Connection.ofTuples 6 { orig with routeId := there } { orig.reversed with routeId := back }

def start : Engine := (ofConfig config).toOption.get rfl

/-- One route, a connection through it in both directions, and one that is
forwarded back through it only, and names a route that is not there. -/
def engine : Engine :=
  start.run
    [send .route .register (.route (route 7)),
      send (.connection .v4) .register (.connection (connection 1000 7 7)),
      send (.connection .v4) .register
        (.connection { connection 2000 99 7 with directions := .replyOnly })]

theorem engine_reachable : engine.Reachable := ⟨config, start, _, rfl, rfl⟩

end Small

/-! ## Main results -/

/-- **Routes do not dangle.** In a reachable engine every forwarded direction of
a connection names a stored route of the connection's table's family. So right
after a route is registered no connection goes through it, also when an earlier
route had its id. -/
theorem forwarded_route_stored {e : Engine} (h : e.Reachable) :
    (∀ f, ∀ entry ∈ (e.connections.get f).connections.values,
      ∀ d, entry.connection.forwards d = true →
        ∃ r ∈ e.routes.routes.values, r.id = (entry.connection.tuple d).routeId ∧ r.family = f ∧
          e.routes.get? r.id = some r) ∧
      ∀ client m now r, m.Carries .route (some .register) (.route r) →
        (e.dispatch client m now).reply.status = .ok →
          ∀ f, ((e.dispatch client m now).engine.connections.get f).usingRoute r.id = [] := by
  have sound := h.sound
  refine ⟨fun f entry he d hd => ?_, fun client m now r hm hok f => ?_⟩
  · obtain ⟨seq, he⟩ := ConnectionTable.mem_values_iff.1 he
    obtain ⟨r, hr, hf⟩ := routeServes_iff.1 (sound.served f seq entry he d hd)
    obtain ⟨hv, hid⟩ := sound.ids.get?_eq_some_iff.1 hr
    exact ⟨r, hv, hid, hf, hid ▸ hr⟩
  · have running := running_of_ok hok
    rw [dispatch_of_carries running hm] at hok ⊢
    obtain ⟨e', ha, hs⟩ := settled_status_ok (addRoute_ne_ok e r client) hok
    obtain ⟨_, _, t, -, -, ht, rfl⟩ := addRoute_eq_ok ha
    simp only [perform, handleRoute, hs]
    -- A connection through the id would have a route of that id, but the id was free.
    refine ConnectionTable.usingRoute_eq_nil_iff.2 fun seq entry he d hd hid => ?_
    obtain ⟨r', hr', -⟩ := routeServes_iff.1 (sound.served f seq entry he d hd)
    exact RouteTable.id_ne_of_add ht hr' hid.symm

/-- The id 99 is free although a connection that is not forwarded there names it,
and registering it makes no connection go through it. -/
theorem forwarded_route_stored_small :
    Small.engine.Reachable ∧
      (Small.engine.connections.v4.connections.values.map fun entry =>
        (entry.connection.orig.routeId, entry.connection.forwards .orig)) = [(7, true), (99, false)] ∧
      (let o := Small.engine.dispatch Small.client
          (Small.message .route .register (.route (Small.route 99))) 0
       o.reply.status = .ok ∧ (o.engine.connections.get .v4).usingRoute 99 = [] ∧
        (o.engine.connections.get .v4).usingRoute 7 = [1, 2]) := by
  have carries : (Small.message .route .register (.route (Small.route 99))).Carries .route
      (some .register) (.route (Small.route 99)) := ⟨rfl, rfl, by decide +kernel⟩
  have ok : (Small.engine.dispatch Small.client
      (Small.message .route .register (.route (Small.route 99))) 0).reply.status = .ok := by
    decide +kernel
  refine ⟨Small.engine_reachable, by decide +kernel, ok, ?_, by decide +kernel⟩
  exact (forwarded_route_stored Small.engine_reachable).2 _ _ _ _ carries ok .v4

/-- **The index of flows is exact.** In a reachable engine the index of a family
leads from a key to a connection and a direction just when that connection is
stored and forwards that direction, and the key is the direction's. So no two
forwarded directions have one key, looking through all connections finds what the
index finds, and the index counts the forwarded directions. -/
theorem flow_index_exact {e : Engine} (h : e.Reachable) (f : Family) :
    let t := e.connections.get f
    (∀ k seq d, t.flows.get? k = some (seq, d) ↔
      ∃ entry, t.get? seq = some entry ∧ entry.connection.forwards d = true ∧
        k = FlowKey.ofTuple entry.connection.protocol (entry.connection.tuple d)) ∧
      (∀ seq seq' entry entry' d d', t.get? seq = some entry → t.get? seq' = some entry' →
        entry.connection.forwards d = true → entry'.connection.forwards d' = true →
          entry.connection.key d = entry'.connection.key d' → seq = seq' ∧ d = d') ∧
      (∀ k, t.lookup? k = t.scan? k) ∧
      t.flowCount = (t.connections.values.map fun entry => entry.connection.directions.count).sum := by
  intro t
  have exact : t.Exact := h.sound.flows f
  refine ⟨fun k seq d => ?_, fun seq seq' entry entry' d d' he he' hd hd' hk => ?_,
    exact.lookup?_eq_scan?, exact.flowCount_eq⟩
  · simp only [exact k seq d, eq_comm (a := k)]
    rfl
  · exact exact.unique he he' hd hd' hk

/-- Two connections and three flows: the second connection is found by its reply
direction only. -/
theorem flow_index_exact_small :
    let t := Small.engine.connections.get .v4
    Small.engine.Reachable ∧ t.size = 2 ∧ t.flowCount = 3 ∧
      t.lookup? ((Small.connection 2000 99 7).key .reply) =
        t.scan? ((Small.connection 2000 99 7).key .reply) ∧
      ((t.lookup? ((Small.connection 2000 99 7).key .reply)).map (·.1)) = some .reply ∧
      t.lookup? ((Small.connection 2000 99 7).key .orig) = none := by
  obtain ⟨-, -, lookup, count⟩ := flow_index_exact Small.engine_reachable .v4
  exact ⟨Small.engine_reachable, by decide +kernel, count.trans (by decide +kernel), lookup _,
    by decide +kernel, by decide +kernel⟩

end ControlPlane.Engine
