/-
With a route goes exactly what depends on it.

A connection depends on a route when it forwards a direction through it; what a direction
that is not forwarded names makes no difference. What is taken from each table is a list
made beforehand (`dependents`), so what is left is said as for a sweep
(`ConnectionTable.Swept`). As a forwarded direction has a route of its own family, all
dependents are in one table (`Sound.family_of_through`).
-/
import ControlPlane.Proofs.Engine.Removal

namespace ControlPlane

/-- A connection forwards a direction through the route of an id. -/
def Wire.Connection.Through (c : Wire.Connection) (id : UInt32) : Prop :=
  ∃ d, c.forwards d = true ∧ (c.tuple d).routeId = id

instance (c : Wire.Connection) (id : UInt32) : Decidable (c.Through id) :=
  inferInstanceAs (Decidable (∃ d, c.forwards d = true ∧ (c.tuple d).routeId = id))

namespace ConnectionTable

variable {t t' : ConnectionTable} {p : Nat × Tracked → Bool} {seq : Nat} {entry : Tracked} {d : Direction}
  {id : UInt32}

/-- The connections that depend on a route, with their numbers. -/
def dependents (t : ConnectionTable) (id : UInt32) : List (Nat × Tracked) :=
  t.connections.entries.filter fun x => x.2.connection.Through id

theorem mem_dependents_iff {x : Nat × Tracked} :
    x ∈ t.dependents id ↔ t.get? x.1 = some x.2 ∧ x.2.connection.Through id := by
  rw [dependents, List.mem_filter, decide_eq_true_iff]
  exact and_congr_left fun _ => Sequenced.mem_entries_iff

theorem usingRoute_eq (t : ConnectionTable) (id : UInt32) : t.usingRoute id = (t.dependents id).map (·.1) := by
  refine congrArg (List.map _) (List.filter_congr fun x _ => ?_)
  rw [Bool.eq_iff_iff, uses_iff, decide_eq_true_iff]
  rfl

/-! ## What a sweep leaves -/

theorem Swept.get?_eq_some_iff (h : Swept t t' p) :
    t'.get? seq = some entry ↔ t.get? seq = some entry ∧ p (seq, entry) = false := by
  have stored : (seq, entry) ∈ t'.connections.entries ↔ t'.get? seq = some entry := Sequenced.mem_entries_iff
  rw [← stored, h.entries, List.mem_filter, Bool.not_eq_true', Sequenced.mem_entries_iff]
  rfl

/-- A connection that is left has its flows. -/
theorem Swept.leads (h : Swept t t' p) (exact : t.Exact) (left : t'.get? seq = some entry)
    (forwards : entry.connection.forwards d = true) :
    t'.flows.get? (entry.connection.key d) = some (seq, d) := by
  obtain ⟨stored, -⟩ := h.get?_eq_some_iff.1 left
  have leads := (exact _ seq d).2 ⟨entry, stored, forwards, rfl⟩
  exact (h.flows _ seq d).2 ⟨leads, Sequenced.mem_numbers_iff.2 ⟨entry, left⟩⟩

/-- What a connection that is gone forwarded leads nowhere. -/
theorem Swept.free (h : Swept t t' p) (exact : t.Exact) (stored : t.get? seq = some entry)
    (gone : p (seq, entry) = true) (forwards : entry.connection.forwards d = true) :
    t'.flows.get? (entry.connection.key d) = none := by
  rw [Option.eq_none_iff_forall_ne_some]
  rintro ⟨n, d'⟩ leads
  obtain ⟨led, left⟩ := (h.flows _ n d').1 leads
  -- The key led to the connection that is gone.
  rw [(exact _ seq d).2 ⟨entry, stored, forwards, rfl⟩] at led
  cases led
  obtain ⟨other, there⟩ := Sequenced.mem_numbers_iff.1 left
  obtain ⟨same, kept⟩ := h.get?_eq_some_iff.1 there
  cases stored.symm.trans same
  rw [gone] at kept
  cases kept

end ConnectionTable

theorem RouteTable.byId_remove (t : RouteTable) (id id' : UInt32) (seq : Nat) :
    (t.remove id).2.byId.get? id' = some seq ↔ t.byId.get? id' = some seq ∧ id' ≠ id := by
  rw [Index.get?_eq_some_iff, RouteTable.pairs_remove, List.mem_filter, bne_iff_ne, Index.get?_eq_some_iff]

namespace Engine

variable {e e' : Engine} {r : Route} {f : Family} {seq : Nat} {entry : Tracked}

/-- An engine and what is left of it when a route goes with all that depends on it. -/
structure WithoutRoute (e : Engine) (r : Route) (e' : Engine) : Prop where
  unknown : e'.routes.get? r.id = none
  routes : e'.routes.routes.entries = e.routes.routes.entries.filter fun x => x.2.id != r.id
  issued : e'.routes.routes.last = e.routes.routes.last
  ids : ∀ id seq, e'.routes.byId.get? id = some seq ↔ e.routes.byId.get? id = some seq ∧ id ≠ r.id
  connections : ∀ f, (e.connections.get f).Swept (e'.connections.get f) fun x => x.2.connection.Through r.id
  /-- All that depends on the route is of its family. -/
  own : ∀ f, f ≠ r.family → (e.connections.get f).dependents r.id = [] ∧ e'.connections.get f = e.connections.get f
  cascaded : e'.metrics.cascaded =
    e.metrics.cascaded + .ofNat ((e.connections.get r.family).dependents r.id).length
  /-- What is gone leaves its keys for others. -/
  freed : ∀ f, ∀ x ∈ (e.connections.get f).dependents r.id, ∀ d, x.2.connection.forwards d = true →
    (e'.connections.get f).flows.get? (x.2.connection.key d) = none
  /-- What names the route only where it forwards nothing stays, and so do its flows. -/
  kept : ∀ f seq entry, (e.connections.get f).get? seq = some entry →
    (∀ d, (entry.connection.tuple d).routeId = r.id → entry.connection.forwards d = false) →
      (e'.connections.get f).get? seq = some entry ∧
        ∀ d, entry.connection.forwards d = true →
          (e'.connections.get f).flows.get? (entry.connection.key d) = some (seq, d)
  rest : e' = { e with routes := e'.routes, connections := e'.connections, metrics := e'.metrics }

theorem Sound.family_of_through (h : e.Sound) (found : e.routes.get? r.id = some r)
    (stored : (e.connections.get f).get? seq = some entry) (through : entry.connection.Through r.id) :
    f = r.family := by
  obtain ⟨d, forwards, named⟩ := through
  obtain ⟨r', found', family⟩ := routeServes_iff.1 (h.served f seq entry stored d forwards)
  rw [named, found, Option.some.injEq] at found'
  rw [← family, ← found']

/-- No connection of another family depends on a route. -/
theorem Sound.dependents_eq_nil (h : e.Sound) (found : e.routes.get? r.id = some r) (other : f ≠ r.family) :
    (e.connections.get f).dependents r.id = [] := by
  rw [List.eq_nil_iff_forall_not_mem]
  intro x hx
  obtain ⟨stored, through⟩ := ConnectionTable.mem_dependents_iff.1 hx
  exact other (h.family_of_through found stored through)

/-- As many connections go as there are dependents in the table of the route's family. -/
theorem Sound.through_eq (h : e.Sound) (found : e.routes.get? r.id = some r) :
    e.through [r.id] = ((e.connections.get r.family).dependents r.id).length := by
  simp only [through, ConnectionTable.usingAny_singleton, ConnectionTable.usingRoute_eq, List.length_map]
  cases hf : r.family with
  | v4 =>
    have none := h.dependents_eq_nil found (f := .v6) (by simp [hf])
    rw [none, List.length_nil, Nat.add_zero]
  | v6 =>
    have none := h.dependents_eq_nil found (f := .v4) (by simp [hf])
    rw [none, List.length_nil, Nat.zero_add]

theorem Dropped.withoutRoute (h : e.Sound) (found : e.routes.get? r.id = some r) (dropped : Dropped e [r.id] e')
    (rest : e' = { e with routes := e'.routes, connections := e'.connections, metrics := e'.metrics }) :
    WithoutRoute e r e' := by
  have routes : e'.routes = (e.routes.remove r.id).2 := dropped.routes
  have tables (f : Family) : e'.connections.get f =
      (e.connections.get f).removeAll (((e.connections.get f).dependents r.id).map (·.1)) := by
    rw [dropped.connections, ConnectionTable.usingAny_singleton, ConnectionTable.usingRoute_eq]
  have swept (f : Family) :
      (e.connections.get f).Swept (e'.connections.get f) fun x => x.2.connection.Through r.id := by
    rw [tables]
    exact (h.flows f).swept_filter _
  constructor
  case unknown => rw [routes, h.ids.get?_remove, if_pos rfl]
  case routes => rw [routes, h.ids.entries_remove]
  case issued => rw [routes, RouteTable.last_remove]
  case ids => exact fun id seq => routes ▸ e.routes.byId_remove r.id id seq
  case connections => exact swept
  case own =>
    intro f other
    have none := h.dependents_eq_nil found other
    exact ⟨none, by rw [tables, none, List.map_nil, ConnectionTable.removeAll_nil]⟩
  case cascaded => exact dropped.cascaded.trans (by rw [h.through_eq found]; rfl)
  case freed =>
    intro f x hx d forwards
    obtain ⟨stored, through⟩ := ConnectionTable.mem_dependents_iff.1 hx
    exact (swept f).free (h.flows f) stored (decide_eq_true through) forwards
  case kept =>
    intro f seq entry stored silent
    have apart : ¬ entry.connection.Through r.id := by
      rintro ⟨d, forwards, named⟩
      rw [silent d named] at forwards
      cases forwards
    have left := (swept f).get?_eq_some_iff.2 ⟨stored, decide_eq_false apart⟩
    exact ⟨left, fun d forwards => (swept f).leads (h.flows f) left forwards⟩
  case rest => exact rest

/-! ## Main result -/

/-- **With a route goes exactly what depends on it.** A running engine answers the
deregistration of a stored route with ok. The route is gone, and so are the connections
that forward a direction through it, all of which are of its family; as many are counted,
and their keys lead nowhere. All other routes and connections stay under their numbers, in
their order and as they were, and what led to them still does, also to those that name the
route in a direction that they do not forward. -/
theorem dependents_removed {e : Engine} (h : e.Reachable) (running : e.running = true) {r : Route}
    (stored : r ∈ e.routes.routes.values) {event : Event} (sent : Deregisters event r.id) :
    (e.step event).2 = .replied (Wire.Reply.ok.toMessage Command.route.code) (e.tellOwner r) ∧
      WithoutRoute e r (e.step event).1 := by
  have found : e.routes.get? r.id = some r := h.sound.ids.get?_eq_some_iff.2 ⟨stored, rfl⟩
  obtain ⟨answer, metrics, -, left⟩ := step_deregisters running sent
  obtain ⟨routes, connections, counted, dropped⟩ := dropRoute_writes e r.id
  refine ⟨?_, (step_dropped h.sound running sent).withoutRoute h.sound found ?_⟩
  · rw [answer, deregistered, found, Option.toList_some, List.flatMap_singleton]
    rfl
  · rw [left, dropped]

/-- A third connection names the first route where it forwards nothing. -/
def Small.branching : List Event :=
  Small.crossing ++
    [Small.send (.connection .v4) .register (.connection { Small.connection 3000 7 8 with directions := .replyOnly })]

/-- Of three connections that name the route only the one that goes through it goes. -/
theorem dependents_removed_small :
    let e := Small.start.run Small.branching
    let left := (e.step (Small.deregister 7)).1
    e.Reachable ∧ e.running = true ∧ (∃ r ∈ e.routes.routes.values, r.id = 7) ∧
      Deregisters (Small.deregister 7) 7 ∧
      (e.connections.get .v4).connections.values.map (·.connection.orig.routeId) = [7, 8, 7] ∧
      (left.connections.get .v4).connections.numbers = [2, 3] ∧
      (left.connections.get .v4).flows.get? ((Small.connection 1000 7 8).key .orig) = none ∧
      (left.connections.get .v4).flows.get? ((Small.connection 3000 7 8).key .reply) = some (3, .reply) ∧
      left.connections.get .v6 = e.connections.get .v6 ∧ left.metrics.cascaded = 1 := by
  intro e left
  have reachable : e.Reachable := ⟨Small.config, Small.start, Small.branching, rfl, rfl⟩
  have running : e.running = true := by decide +kernel
  have sent : Deregisters (Small.deregister 7) 7 := Small.deregister_deregisters (by decide +kernel)
  obtain ⟨r, stored, rid, family⟩ : ∃ r ∈ e.routes.routes.values, r.id = 7 ∧ r.family = .v4 := by decide +kernel
  have own : Deregisters (Small.deregister 7) r.id := by rw [rid]; exact sent
  obtain ⟨-, without⟩ := dependents_removed reachable running stored own
  have first : (e.connections.get .v4).get? 1 = some ⟨Small.connection 1000 7 8, 0, 0⟩ := by decide +kernel
  have third : (e.connections.get .v4).get? 3 =
      some ⟨{ Small.connection 3000 7 8 with directions := .replyOnly }, 0, 0⟩ := by decide +kernel
  refine ⟨reachable, running, ⟨r, stored, rid⟩, sent, by decide +kernel, by decide +kernel, ?_, ?_, ?_, ?_⟩
  · have through : (Small.connection 1000 7 8).Through r.id := ⟨.orig, rfl, rid.symm⟩
    have depends : (1, ⟨Small.connection 1000 7 8, 0, 0⟩) ∈ (e.connections.get .v4).dependents r.id :=
      ConnectionTable.mem_dependents_iff.2 ⟨first, through⟩
    exact without.freed .v4 _ depends .orig rfl
  · refine (without.kept .v4 3 _ third ?_).2 .reply rfl
    rw [rid]
    decide
  · exact (without.own .v6 (by simp [family])).2
  · rw [without.cascaded, rid, family]
    decide +kernel

end Engine

end ControlPlane
