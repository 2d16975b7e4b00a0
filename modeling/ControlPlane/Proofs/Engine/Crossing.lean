/-
What a message or a call of the host does to routes.

A route is registered by a client, through an interface. Packets that are forwarded cross
it and are counted, and no event changes it otherwise before one takes it away
(`step_routeArises`).
-/
import ControlPlane.Proofs.Engine.Event

namespace ControlPlane.Engine

open Wire (Message)

variable {e e' e'' : Engine} {event : Event} {client : ClientId} {m : Message} {now seq : Nat} {r : Route}

/-! ## What only takes routes away -/

/-- What the later engine stores of routes, the earlier one does. -/
def ThinsRoutes (e e' : Engine) : Prop :=
  ∀ seq r, e'.routes.routes.get? seq = some r → e.routes.routes.get? seq = some r

theorem thinsRoutes_of_routes (h : e'.routes = e.routes) : e.ThinsRoutes e' := by
  intro seq r hr
  rwa [h] at hr

theorem ThinsRoutes.trans (h : e.ThinsRoutes e') (h' : e'.ThinsRoutes e'') : e.ThinsRoutes e'' :=
  fun seq r hr => h seq r (h' seq r hr)

theorem dropRoute_thinsRoutes (e : Engine) (id : UInt32) : e.ThinsRoutes (e.dropRoute id).1 := by
  cases found : e.routes.get? id with
  | none =>
    rw [dropRoute_of_get?_eq_none found]
    exact thinsRoutes_of_routes rfl
  | some route =>
    obtain ⟨n, -, -, removed⟩ := RouteTable.remove_of_get? found
    rw [dropRoute_of_get? found, removed]
    intro seq r hr
    rw [Sequenced.get?_erase] at hr
    split at hr
    · cases hr
    · exact hr

theorem dropRoutes_thinsRoutes (e : Engine) (ids : List UInt32) : e.ThinsRoutes (e.dropRoutes ids).1 := by
  induction ids generalizing e with
  | nil => exact thinsRoutes_of_routes rfl
  | cons id ids ih => exact (dropRoute_thinsRoutes e id).trans (ih _)

/-! ## Events -/

/-- A client registers a route with a record, and is answered with `Status.ok`. -/
def Admits (e : Engine) (event : Event) (client : ClientId) (r : Wire.Route) : Prop :=
  ∃ m now, event.message? = some (client, m, now) ∧ m.Carries .route (some .register) (.route r) ∧
    (e.dispatch client m now).reply.status = .ok

/-- The id of the route that a packet is forwarded through. -/
def crossed? (e : Engine) (event : Event) : Option UInt32 :=
  match event with
  | .packet f key _ _ =>
    ((e.connections.get f).lookup? key).map fun (d, entry) => (entry.connection.tuple d).routeId
  | _ => none

/-- How a route comes to be stored after an event: it is registered, or it was there, and
a packet that crosses it is counted. -/
inductive RouteArises (e : Engine) (event : Event) (seq : Nat) (r : Route) : Prop
  | registered {client : ClientId} {record : Wire.Route} {family : Family} {egress : Interface}
      (h : e.Admits event client record) (hf : record.family = some family)
      (hi : e.interfaces.resolve? record.interface = some egress) (hs : seq = e.routes.routes.next)
      (hr : r = .registered record family egress (some client))
  | kept {old : Route} (h : e.routes.routes.get? seq = some old)
      (hr : r = if (e.crossed? event).bind e.routes.byId.get? = some seq then { old with hits := old.hits + 1 } else old)

theorem routeArises_of_thins (ht : e.ThinsRoutes e') (hn : e.crossed? event = none)
    (h : e'.routes.routes.get? seq = some r) : RouteArises e event seq r :=
  .kept (ht seq r h) (by rw [hn]; rfl)

theorem crossed?_of_message (hm : event.message? = some (client, m, now)) : e.crossed? event = none := by
  cases event with
  | packet => cases hm
  | _ => rfl

/-- Of the commands about a route one that registers it stores it, and the others at most
take some away. -/
theorem handled_routeArises {action : Action} {record : Wire.Route} (hm : event.message? = some (client, m, now))
    (running : e.running = true) (carries : m.Carries .route (some action) (.route record))
    (h : (e.handleRoute client action record).engine.routes.routes.get? seq = some r) : RouteArises e event seq r := by
  have thins {e' : Engine} (ht : e.ThinsRoutes e') : e'.routes.routes.get? seq = some r → RouteArises e event seq r :=
    routeArises_of_thins ht (crossed?_of_message hm)
  have answered (ok : (e.handleRoute client action record).reply.status = .ok) :
      (e.dispatch client m now).reply.status = .ok := by
    rw [dispatch_of_carries running carries]
    exact ok
  have handled := handleRoute_handled e client action record
  generalize e.handleRoute client action record = o at handled answered h
  cases handled with
  | registered ha hf hi ht =>
    subst ha
    obtain ⟨-, rfl⟩ := RouteTable.add_eq_ok_iff.1 ht
    simp only [Sequenced.get?_push] at h
    split at h
    · next number =>
      cases h
      exact .registered ⟨m, now, hm, carries, answered rfl⟩ hf hi number rfl
    · exact thins (thinsRoutes_of_routes rfl) h
  | dropped => exact thins (dropRoute_thinsRoutes e record.id) h
  | listed =>
    obtain ⟨c, listed⟩ := list_engine e .routes action
    rw [listed] at h
    exact thins (thinsRoutes_of_routes rfl) h
  | refused => exact thins (thinsRoutes_of_routes rfl) h

theorem message_routeArises (hm : event.message? = some (client, m, now))
    (h : (e.dispatch client m now).engine.routes.routes.get? seq = some r) : RouteArises e event seq r := by
  have thins {e' : Engine} (ht : e.ThinsRoutes e') : e'.routes.routes.get? seq = some r → RouteArises e event seq r :=
    routeArises_of_thins ht (crossed?_of_message hm)
  have answered := dispatch_answered e client m now
  generalize e.dispatch client m now = o at answered h
  cases answered with
  | joined | left | refused => exact thins (thinsRoutes_of_routes rfl) h
  | @performed command action record metrics running carries =>
    have performed := perform_performed e client command action record now
    change (e.perform client command action record now).engine.routes.routes.get? seq = some r at h
    generalize e.perform client command action record now = o at performed h
    cases performed with
    | route action record => exact handled_routeArises hm running carries h
    | connection f action c =>
      have same := (handleConnection_writes e action c now f).routes (by simp) (by simp)
      exact thins (thinsRoutes_of_routes same) h
    | reset f =>
      have cleared : e.ThinsRoutes (e.withConnections f (e.connections.get f).clear) := thinsRoutes_of_routes rfl
      exact thins (cleared.trans (dropRoutes_thinsRoutes _ _)) h
    | beside _ routes => exact thins (thinsRoutes_of_routes routes) h

theorem packet_routeArises {f : Family} {key : FlowKey} {octets : UInt64}
    (h : (e.account f key octets now).1.routes.routes.get? seq = some r) :
    RouteArises e (.packet f key octets now) seq r := by
  obtain ⟨looked, missed⟩ | ⟨n, d, entry, leads, stored, counted⟩ := account_cases e f key octets now
  · rw [missed] at h
    exact routeArises_of_thins (thinsRoutes_of_routes rfl) (by rw [crossed?, looked]; rfl) h
  · have crossed : e.crossed? (.packet f key octets now) = some (entry.connection.tuple d).routeId := by
      rw [crossed?, ConnectionTable.lookup?_eq_some.2 ⟨n, leads, stored⟩]
      rfl
    rw [counted, RouteTable.get?_routes_modify] at h
    split at h
    · next leads =>
      obtain ⟨old, before, rfl⟩ := Option.map_eq_some_iff.1 h
      exact .kept before (by rw [crossed, Option.bind_some, if_pos leads])
    · next other => exact .kept h (by rw [crossed, Option.bind_some, if_neg other])

/-- Every event is accounted for. -/
theorem step_routeArises (h : (e.step event).1.routes.routes.get? seq = some r) : RouteArises e event seq r := by
  induction event using Event.byMessage with
  | message event client m now hm =>
    rw [step_of_message hm] at h
    exact message_routeArises hm h
  | malformed client octets now error hd =>
    rw [step_of_malformed hd] at h
    exact routeArises_of_thins (thinsRoutes_of_routes rfl) rfl h
  | age now =>
    obtain ⟨_, _, aged⟩ := age_writes e now
    have same : (e.step (.age now)).1.routes = e.routes := by
      show (e.age now).1.routes = e.routes
      rw [aged]
    exact routeArises_of_thins (thinsRoutes_of_routes same) rfl h
  | packet f key octets now => exact packet_routeArises h
  | acquire client =>
    obtain ⟨_, acquired⟩ := acquire_writes e client
    exact routeArises_of_thins (thinsRoutes_of_routes (by rw [acquired])) rfl h
  | shutdown =>
    obtain ⟨_, _, _, _, stopped⟩ := shutdown_writes e
    have same : (e.step .shutdown).1.routes = e.routes := by
      show e.shutdown.routes = e.routes
      rw [stopped]
    exact routeArises_of_thins (thinsRoutes_of_routes same) rfl h
  | health | register | unregister | unreachable | release =>
    exact routeArises_of_thins (thinsRoutes_of_routes rfl) rfl h

end ControlPlane.Engine
