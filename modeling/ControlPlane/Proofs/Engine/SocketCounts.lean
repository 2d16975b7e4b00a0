/-
An engine does not look at what its socket counts.

Datagrams that are no message and events that were handed over are counted beside the
engine. With other such counts it answers every message in the same way, and they stay as they
are (`dispatch_withCounts`).
-/
import ControlPlane.Proofs.Engine.Change

namespace ControlPlane.Engine

open Wire (Message)

variable {e : Engine} {malformed delivered : UInt64}

/-- An engine with other counts of malformed datagrams and of delivered events. -/
def withCounts (e : Engine) (malformed delivered : UInt64) : Engine :=
  { e with metrics := { e.metrics with malformed, delivered } }

/-- An outcome with other such counts. -/
def Outcome.withCounts (o : Outcome) (malformed delivered : UInt64) : Outcome :=
  { o with engine := o.engine.withCounts malformed delivered }

@[simp] theorem routes_withCounts : (e.withCounts malformed delivered).routes = e.routes := rfl

@[simp] theorem connections_withCounts : (e.withCounts malformed delivered).connections = e.connections := rfl

@[simp] theorem interfaces_withCounts : (e.withCounts malformed delivered).interfaces = e.interfaces := rfl

@[simp] theorem timeouts_withCounts : (e.withCounts malformed delivered).timeouts = e.timeouts := rfl

@[simp] theorem session_withCounts : (e.withCounts malformed delivered).session = e.session := rfl

@[simp] theorem running_withCounts : (e.withCounts malformed delivered).running = e.running := rfl

@[simp] theorem routeServes_withCounts (f : Family) (id : UInt32) :
    (e.withCounts malformed delivered).routeServes f id = e.routeServes f id := rfl

theorem count_malformed_withCounts (n : UInt64) :
    (e.withCounts malformed delivered).count .malformed n = e.withCounts (malformed + n) delivered := rfl

theorem count_delivered_withCounts (n : UInt64) :
    (e.withCounts malformed delivered).count .delivered n = e.withCounts malformed (delivered + n) := rfl

/-! ## Operations -/

/-- What is put into an engine is put into one with other counts. -/
theorem map_withCounts {α : Type} (x : Except Status α) (put : α → Engine) :
    (x.map fun a => (put a).withCounts malformed delivered) =
      (x.map put).map (·.withCounts malformed delivered) := by
  cases x <;> rfl

theorem addRoute_withCounts (e : Engine) (r : Wire.Route) (owner : Option ClientId) :
    (e.withCounts malformed delivered).addRoute r owner =
      (e.addRoute r owner).map (·.withCounts malformed delivered) := by
  simp only [addRoute, routes_withCounts, interfaces_withCounts]
  by_cases known : e.routes.contains r.id = true
  · simp only [known, if_true]
    rfl
  · simp only [known, Bool.false_eq_true, if_false]
    cases r.family with
    | none => rfl
    | some family =>
      cases e.interfaces.resolve? r.interface with
      | none => rfl
      | some egress => exact map_withCounts _ fun routes => { e with routes }

theorem dropRoute_withCounts (e : Engine) (id : UInt32) :
    (e.withCounts malformed delivered).dropRoute id =
      ((e.dropRoute id).1.withCounts malformed delivered, (e.dropRoute id).2) := by
  have cascades : families.foldl (cascade id) (e.withCounts malformed delivered) =
      (families.foldl (cascade id) e).withCounts malformed delivered := by
    simp only [families, List.foldl_cons, List.foldl_nil, cascade_eq]
    rfl
  cases h : e.routes.get? id with
  | none => rw [dropRoute_of_get?_eq_none h, dropRoute_of_get?_eq_none (routes_withCounts.symm ▸ h)]
  | some r =>
    rw [dropRoute_of_get? h, dropRoute_of_get? (routes_withCounts.symm ▸ h), cascades]
    rfl

theorem dropRoutes_withCounts (e : Engine) (ids : List UInt32) :
    (e.withCounts malformed delivered).dropRoutes ids =
      ((e.dropRoutes ids).1.withCounts malformed delivered, (e.dropRoutes ids).2) := by
  induction ids generalizing e with
  | nil => rfl
  | cons id ids ih => simp only [dropRoutes, dropRoute_withCounts, ih]

theorem reset_withCounts (e : Engine) (f : Family) :
    (e.withCounts malformed delivered).reset f =
      ((e.reset f).1.withCounts malformed delivered, (e.reset f).2) :=
  dropRoutes_withCounts (e.withConnections f (e.connections.get f).clear) _

theorem addConnection_withCounts (e : Engine) (c : Wire.Connection) (now : Nat) :
    (e.withCounts malformed delivered).addConnection c now =
      (e.addConnection c now).map (·.withCounts malformed delivered) := by
  simp only [addConnection, routeServes_withCounts, connections_withCounts]
  by_cases served : (c.forwarded.all fun d => e.routeServes c.family (c.tuple d).routeId) = true
  · simp only [served, if_true]
    exact map_withCounts _ fun x : Nat × ConnectionTable => e.withConnections c.family x.2
  · simp only [served, Bool.false_eq_true, if_false]
    rfl

theorem removeConnection_withCounts (e : Engine) (c : Wire.Connection) :
    (e.withCounts malformed delivered).removeConnection c =
      (e.removeConnection c).map (·.withCounts malformed delivered) := by
  simp only [removeConnection, connections_withCounts]
  cases (e.connections.get c.family).find? c.protocol c.orig with
  | none => rfl
  | some seq =>
    dsimp only
    obtain ⟨removed, t⟩ := (e.connections.get c.family).remove seq
    cases removed <;> rfl

theorem modifyFound_withCounts (e : Engine) (c : Wire.Connection) (g : Tracked → Tracked) :
    (e.withCounts malformed delivered).modifyFound c g =
      (e.modifyFound c g).map (·.withCounts malformed delivered) := by
  simp only [modifyFound, connections_withCounts]
  cases (e.connections.get c.family).find? c.protocol c.orig with
  | none => rfl
  | some seq =>
    dsimp only
    cases (e.connections.get c.family).get? seq <;> rfl

theorem setTimeout_withCounts (e : Engine) (t : Wire.IdleTimeout) :
    (e.withCounts malformed delivered).setTimeout t =
      (e.setTimeout t).map (·.withCounts malformed delivered) := by
  simp only [setTimeout, timeouts_withCounts]
  by_cases never : t.seconds = 0
  · simp only [never, if_true]
    rfl
  · simp only [never, if_false]
    exact map_withCounts _ fun timeouts => { e with timeouts }

/-! ## Messages -/

theorem settled_withCounts (e : Engine) (x : Except Status Engine) :
    (e.withCounts malformed delivered).settled (x.map (·.withCounts malformed delivered)) =
      (e.settled x).withCounts malformed delivered := by
  cases x <;> rfl

theorem settled_map_withCounts {α : Type} (e : Engine) (x : Except Status α) (put : α → Engine) :
    (e.withCounts malformed delivered).settled (x.map fun a => (put a).withCounts malformed delivered) =
      (e.settled (x.map put)).withCounts malformed delivered := by
  rw [map_withCounts, settled_withCounts]

theorem list_withCounts (e : Engine) (r : Resource) (action : Action) :
    (e.withCounts malformed delivered).list r action = (e.list r action).withCounts malformed delivered := by
  have cursor : (e.withCounts malformed delivered).cursor r = e.cursor r := cursor_of_cursors rfl r
  have records : (e.withCounts malformed delivered).records r action = e.records r action := by cases r <;> rfl
  have moved (c : Cursor) :
      (e.withCounts malformed delivered).withCursor r c = (e.withCursor r c).withCounts malformed delivered := by
    cases r <;> rfl
  rw [list, list, cursor, records]
  split <;> rw [moved] <;> rfl

theorem handleRoute_withCounts (e : Engine) (client : ClientId) (action : Action) (r : Wire.Route) :
    (e.withCounts malformed delivered).handleRoute client action r =
      (e.handleRoute client action r).withCounts malformed delivered := by
  cases action with
  | register =>
    simp only [handleRoute, addRoute_withCounts]
    exact settled_withCounts ..
  | deregister =>
    simp only [handleRoute, dropRoute_withCounts]
    rfl
  | query | queryCont =>
    rw [handleRoute_list _ client r rfl, handleRoute_list _ client r rfl]
    exact list_withCounts ..
  | keepAlive | removed | update => rfl

theorem handleConnection_withCounts (e : Engine) (action : Action) (c : Wire.Connection) (now : Nat) :
    (e.withCounts malformed delivered).handleConnection action c now =
      (e.handleConnection action c now).withCounts malformed delivered := by
  cases action with
  | register =>
    simp only [handleConnection, addConnection_withCounts]
    exact settled_withCounts ..
  | deregister =>
    simp only [handleConnection, removeConnection_withCounts]
    exact settled_withCounts ..
  | update =>
    simp only [handleConnection, updateConnection, modifyFound_withCounts]
    exact settled_withCounts ..
  | keepAlive =>
    simp only [handleConnection, Engine.keepAlive, modifyFound_withCounts]
    exact settled_withCounts ..
  | query | queryCont =>
    rw [handleConnection_list _ c now rfl, handleConnection_list _ c now rfl]
    exact list_withCounts ..
  | removed => rfl

theorem handleInterface_withCounts (e : Engine) (client : ClientId) (action : Action) (i : Interface) :
    (e.withCounts malformed delivered).handleInterface client action i =
      (e.handleInterface client action i).withCounts malformed delivered := by
  cases action with
  | update =>
    simp only [handleInterface, session_withCounts, interfaces_withCounts]
    by_cases held : e.session.isHeldBy client = true
    · simp only [held, if_true]
      exact settled_map_withCounts e (e.interfaces.update i) fun interfaces => { e with interfaces }
    · simp only [held, Bool.false_eq_true, if_false]
      rfl
  | query | queryCont =>
    rw [handleInterface_list _ client i rfl, handleInterface_list _ client i rfl]
    exact list_withCounts ..
  | register | deregister | keepAlive | removed => rfl

theorem perform_withCounts (e : Engine) (client : ClientId) (command : Command) (action : Option Action)
    (r : Wire.Record) (now : Nat) :
    (e.withCounts malformed delivered).perform client command action r now =
      (e.perform client command action r now).withCounts malformed delivered := by
  unfold perform
  split
  · exact handleRoute_withCounts ..
  · exact handleConnection_withCounts ..
  · simp only [reset_withCounts]
    rfl
  · simp only [setTimeout_withCounts]
    exact settled_withCounts ..
  · exact settled_map_withCounts e (e.session.lock client) fun session => { e with session }
  · exact settled_map_withCounts e (e.session.unlock client) fun session => { e with session }
  · exact handleInterface_withCounts ..
  · rfl

theorem execute_withCounts (e : Engine) (client : ClientId) (now : Nat) {m : Message} (hk : m.kind = .command) :
    (e.withCounts malformed delivered).execute client m now =
      (e.execute client m now).withCounts malformed delivered := by
  obtain ⟨command, action, r, hm⟩ | ⟨status, -, refuses⟩ := execute_cases hk
  · rw [execute_of_carries hm, execute_of_carries hm, perform_withCounts]
  · rw [refuses, refuses]
    rfl

theorem handle_withCounts (e : Engine) (client : ClientId) (m : Message) (now : Nat) :
    (e.withCounts malformed delivered).handle client m now =
      (e.handle client m now).withCounts malformed delivered := by
  obtain running | stopped := Bool.eq_false_or_eq_true e.running
  · have running' : (e.withCounts malformed delivered).running = true := running
    cases hk : m.kind with
    | register =>
      cases read : Wire.Registration.decode m.payload with
      | ok backChannel =>
        rw [handle_joining running hk read, handle_joining running' hk read]
        rfl
      | error fault =>
        rw [handle_misread running hk read, handle_misread running' hk read]
        rfl
    | unregister =>
      rw [handle_leaving running hk, handle_leaving running' hk]
      rfl
    | command =>
      rw [handle_command running hk, handle_command running' hk, execute_withCounts _ _ _ hk]
      rfl
  · rw [handle_of_not_running stopped, handle_of_not_running (running_withCounts.trans stopped)]
    rfl

/-- What is counted beside an engine has no effect on what becomes of a message, and the
message none on it. -/
theorem dispatch_withCounts (e : Engine) (client : ClientId) (m : Message) (now : Nat) :
    (e.withCounts malformed delivered).dispatch client m now =
      (e.dispatch client m now).withCounts malformed delivered := by
  simp only [dispatch, handle_withCounts]
  rfl

end ControlPlane.Engine
