/-
What comes of a route's record whose flags name both families.

Such flags are read as naming no family (`Wire.Message.carries_of_both`), which is no fault
of the record. Only a registration asks for the family, and only after it has asked for the
id; whatever else is asked under such flags is done as if the record held no more than an
id (`handleRoute_of_no_family`).

Main result: `both_families_unseen`.
-/
import ControlPlane.Proofs.Engine.Validation

namespace ControlPlane

namespace Wire.Message

/-- The id in a route's record. -/
def routeId (m : Message) : UInt32 := Layout.u32.readAt 32 m.payload

/-- Whether the flags in a route's record name both families. -/
def namesBothFamilies (m : Message) : Bool :=
  let flags := Layout.u32.readAt 36 m.payload
  flags &&& 1 != 0 && flags &&& 2 != 0

variable {m : Message} {action : Action}

/-- A route's record under both bits is read as one of no family. -/
theorem carries_of_both (hk : m.kind = .command) (hc : m.code = Command.route.code)
    (size : m.payload.length = Command.route.recordSize) (both : m.namesBothFamilies = true)
    (number : Action.ofNumber? m.actionNumber = some action) :
    ∃ r : Route, m.Carries .route (some action) (.route r) ∧ r.id = m.routeId ∧ r.family = none := by
  obtain ⟨r, read, id, family⟩ := Route.decode_of_size size
  have payload : Record.ofPayload .route m.payload = .ok (.route r) := congrArg (Except.map Record.route) read
  have carries := carries_of_read hk (hc ▸ Command.ofCode?_code .route) size (by simp [number]) payload
  refine ⟨r, number ▸ carries, id, ?_⟩
  simp only [namesBothFamilies, Bool.and_eq_true] at both
  rw [family, Route.family?, both.1, both.2]

/-- A message that holds no more of a route than its id. -/
def ofRouteId (action : Action) (id : UInt32) : Message :=
  ⟨.command, Command.route.code, (Route.ofId id).encode action⟩

theorem carries_ofRouteId (action : Action) (id : UInt32) :
    (ofRouteId action id).Carries .route (some action) (.route (.ofId id)) :=
  ⟨rfl, rfl, Record.decode_of_belongs (r := .route (.ofId id)) rfl ⟨named_empty, rfl⟩⟩

end Wire.Message

namespace Engine

open Wire (Message)

variable {e : Engine} {client : ClientId} {m : Message} {now : Nat} {action : Action} {r : Wire.Route}

/-- A record of no family is a route's id, whatever is done with it. -/
theorem handleRoute_of_no_family (h : r.family = none) :
    e.handleRoute client action r = e.handleRoute client action (.ofId r.id) := by
  cases action with
  | register =>
    have bare : (Wire.Route.ofId r.id).family = none := rfl
    have id : (Wire.Route.ofId r.id).id = r.id := rfl
    simp only [handleRoute, addRoute, h, bare, id]
  | deregister => rfl
  | query | queryCont => rw [handleRoute_list _ _ _ rfl, handleRoute_list _ _ _ rfl]
  | keepAlive | removed | update => rfl

theorem handleRoute_register_of_no_family (h : e.Sound) (family : r.family = none) :
    e.handleRoute client .register r =
      e.refused (if (e.routes.get? r.id).isSome then .alreadyRegistered else .wrongParam) := by
  rw [← h.ids.contains_eq]
  simp only [handleRoute, addRoute, family]
  split <;> rfl

/-- **The bits of both families are not seen.** In a reachable engine that runs, a command
with a route's record under a known action and with the bits of both families is answered,
and done, as if the record held the id alone. So the bits are refused only to a
registration, and then only if the id is free. The route of the id is removed all the same,
with the connections that go through it; entries are listed; and what cannot be done with a
route is an unknown action. -/
theorem both_families_unseen {e : Engine} (h : e.Reachable) (running : e.running = true) {m : Message}
    (hk : m.kind = .command) (hc : m.code = Command.route.code)
    (size : m.payload.length = Command.route.recordSize) (both : m.namesBothFamilies = true) {action : Action}
    (number : Action.ofNumber? m.actionNumber = some action) (client : ClientId) (now : Nat) :
    let o := e.dispatch client m now
    let stored := (e.routes.get? m.routeId).isSome
    o = e.dispatch client (.ofRouteId action m.routeId) now ∧
      (action = .register → o = e.turnedAway m (if stored then .alreadyRegistered else .wrongParam)) ∧
      (action = .deregister →
        o.reply = .ofStatus (if stored then .ok else .entryNotFound) ∧ Dropped e [m.routeId] o.engine ∧
          (stored = false → o = e.turnedAway m .entryNotFound)) ∧
      (action.lists = true →
        (o.reply.status = .ok ∨ o.reply.status = .entryNotFound) ∧ o.events = [] ∧
          ∃ cursors metrics, o.engine = { e with cursors, metrics }) ∧
      (action ∉ Command.route.actions → o = e.turnedAway m .unknownAction) := by
  intro o stored
  obtain ⟨r, carries, id, family⟩ := Message.carries_of_both hk hc size both number
  have turned : ∀ status, status ≠ .ok → e.handleRoute client action r = e.refused status →
      o = e.turnedAway m status := fun status failed refusal =>
    h.dispatch_of_execute running hk failed ((execute_of_carries carries).trans refusal)
  refine ⟨?_, ?_, ?_, fun lists => ?_, fun other => ?_⟩
  · have same : e.perform client .route (some action) (.route r) now =
        e.perform client .route (some action) (.route (.ofId m.routeId)) now := by
      rw [← id]
      exact handleRoute_of_no_family family
    simp only [o, dispatch_of_carries running carries,
      dispatch_of_carries running (Message.carries_ofRouteId action m.routeId), same, hc]
    rfl
  · rintro rfl
    refine turned _ (by split <;> decide) ?_
    rw [handleRoute_register_of_no_family h.sound family, id]
  · rintro rfl
    have event : Deregisters (.message client m now) m.routeId := ⟨client, m, now, r, rfl, carries, id⟩
    refine ⟨?_, step_dropped h.sound running event, fun free => turned _ (by decide) ?_⟩
    · simp only [o, dispatch_of_carries running carries, perform, handleRoute, status_dropRoute, id]
      rfl
    · have none : e.routes.get? m.routeId = none :=
        Option.isNone_iff_eq_none.1 (Option.isSome_eq_false_iff.1 free)
      rw [handleRoute, id, dropRoute_of_get?_eq_none none]
      rfl
  · have asks : m.asks? = some (.routes, action) := by
      rw [carries.asks?_eq]
      simp [Resource.ofCommand?, Option.filter, lists]
    obtain ⟨cursor, engine⟩ := list_engine e .routes action
    simp only [o, dispatch_of_asks running asks]
    rw [engine]
    exact ⟨status_list e .routes action, events_list e .routes action, _, _, rfl⟩
  · have belongs : (Wire.Record.route r).Belongs .route := rfl
    exact turned _ (by decide) (@perform_of_unsupported _ client now _ _ _ belongs rfl rfl other)

namespace Small

/-- A route's record under an action with an id and the bits of both families. -/
def bothFamilies (action : Action) (id : UInt32) : Message :=
  ⟨.command, Command.route.code,
    Wire.Layout.u16.write action.number ++ List.replicate 30 0 ++ Wire.Layout.u32.write id ++
      Wire.Layout.u32.write 3 ++ List.replicate 20 0⟩

end Small

/-- Under both bits a stored id is taken and a free one has no family; a route is listed,
and removed with the two connections through it. -/
theorem both_families_unseen_small :
    let e := Small.engine
    let answer := fun action id => e.dispatch Small.client (Small.bothFamilies action id) 0
    e.Reachable ∧ e.running = true ∧
      answer .register 7 = e.turnedAway (Small.bothFamilies .register 7) .alreadyRegistered ∧
      answer .register 8 = e.turnedAway (Small.bothFamilies .register 8) .wrongParam ∧
      (answer .deregister 7).reply = .ok ∧ Dropped e [7] (answer .deregister 7).engine ∧
      (answer .query 7).events = [] ∧
      answer .update 7 = e.turnedAway (Small.bothFamilies .update 7) .unknownAction := by
  intro e answer
  have running : e.running = true := by decide +kernel
  have unseen := fun action id size both number =>
    @both_families_unseen e Small.engine_reachable running (Small.bothFamilies action id) rfl rfl size both action number
      Small.client 0
  obtain ⟨-, taken, -⟩ := unseen .register 7 (by decide +kernel) (by decide +kernel) (by decide +kernel)
  obtain ⟨-, free, -⟩ := unseen .register 8 (by decide +kernel) (by decide +kernel) (by decide +kernel)
  obtain ⟨-, -, removed, -⟩ := unseen .deregister 7 (by decide +kernel) (by decide +kernel) (by decide +kernel)
  obtain ⟨-, -, -, listed, -⟩ := unseen .query 7 (by decide +kernel) (by decide +kernel) (by decide +kernel)
  obtain ⟨-, -, -, -, other⟩ := unseen .update 7 (by decide +kernel) (by decide +kernel) (by decide +kernel)
  have stored : (e.routes.get? (Small.bothFamilies .register 7).routeId).isSome = true := by decide +kernel
  have missing : (e.routes.get? (Small.bothFamilies .register 8).routeId).isSome = false := by decide +kernel
  have id : (Small.bothFamilies .deregister 7).routeId = 7 := by decide +kernel
  have there : (e.routes.get? 7).isSome = true := by decide +kernel
  rw [stored] at taken
  rw [missing] at free
  rw [id, there] at removed
  exact ⟨Small.engine_reachable, running, taken rfl, free rfl, (removed rfl).1, (removed rfl).2.1, (listed rfl).2.1,
    other (by decide)⟩

/-- A route goes, with the connections through it, for a record under both bits. -/
theorem both_families_removed :
    let m := Small.bothFamilies .deregister 7
    let o := Small.engine.dispatch Small.client m 0
    Small.engine.Reachable ∧ Small.engine.running = true ∧ m.code = Command.route.code ∧
      m.payload.length = Command.route.recordSize ∧ Action.ofNumber? m.actionNumber = some .deregister ∧
      m.namesBothFamilies = true ∧ o.reply.status = .ok ∧
      Small.engine.routes.routes.values.map (·.id) = [7] ∧ o.engine.routes.routes.values = [] ∧
      (Small.engine.connections.get .v4).size = 2 ∧ (o.engine.connections.get .v4).size = 0 := by
  exact ⟨Small.engine_reachable, by decide +kernel, rfl, by decide +kernel, by decide +kernel, by decide +kernel,
    by decide +kernel, by decide +kernel, by decide +kernel, by decide +kernel, by decide +kernel⟩

end Engine

end ControlPlane
