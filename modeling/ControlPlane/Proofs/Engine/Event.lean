/-
What one event comes to, closer than its edits say.

A message is performed, or announces a client, or takes its leave, or is refused
(`Answered`), and nothing else happens but that it is counted. What is performed is about a
route (`RouteHandled`), or a connection, or resets a family, or leaves these tables alone
(`Performed`). An event is such a message, octets that are none, or a call of the host
(`Event.byMessage`). Facts about parts of the engine are proved along these cases.
-/
import ControlPlane.Proofs.Engine.Change

namespace ControlPlane

/-- What is stored of a record that is registered, through an interface. -/
def Route.registered (r : Wire.Route) (family : Family) (egress : Interface) (owner : Option ClientId) : Route :=
  { id := r.id, family, sourceMac := r.sourceMac, destinationMac := r.destinationMac, egress := egress.name,
    egressId := egress.id, nextHop := r.nextHop, mtu := r.mtu, owner, hits := 0 }

namespace Engine

open Wire (Message)

variable {e e' : Engine} {client : ClientId} {m : Message} {now : Nat} {command : Command}
  {action : Option Action} {r : Wire.Record}

/-! ## Commands about a route -/

/-- What a command about a route comes to. -/
inductive RouteHandled (e : Engine) (client : ClientId) (action : Action) (r : Wire.Route) : Outcome → Prop
  | registered {family : Family} {egress : Interface} {t : RouteTable} (ha : action = .register)
      (hf : r.family = some family) (hi : e.interfaces.resolve? r.interface = some egress)
      (ht : e.routes.add (.registered r family egress (some client)) = .ok t) :
      RouteHandled e client action r ⟨{ e with routes := t }, .ok, []⟩
  | dropped (ha : action = .deregister) :
      RouteHandled e client action r
        ⟨(e.dropRoute r.id).1, .ofStatus (e.dropRoute r.id).2.1, (e.dropRoute r.id).2.2⟩
  | listed (ha : action.lists = true) : RouteHandled e client action r (e.list .routes action)
  | refused {status : Status} (hs : status ≠ .ok) : RouteHandled e client action r (e.refused status)

theorem handleRoute_handled (e : Engine) (client : ClientId) (action : Action) (r : Wire.Route) :
    RouteHandled e client action r (e.handleRoute client action r) := by
  cases action with
  | register =>
    show RouteHandled e client _ r (e.settled (e.addRoute r (some client)))
    cases h : e.addRoute r (some client) with
    | error status => exact .refused fun hs => addRoute_ne_ok e r (some client) (hs ▸ h)
    | ok e' =>
      obtain ⟨family, egress, t, hf, hi, ht, rfl⟩ := addRoute_eq_ok h
      exact .registered rfl hf hi ht
  | deregister => exact .dropped rfl
  | query | queryCont =>
    rw [handleRoute_list e client r rfl]
    exact .listed rfl
  | keepAlive | removed | update => exact .refused (by decide)

/-! ## What a command may write -/

/-- An engine and what a command may make of it: it writes the parts that it is about,
where a listing stands, and what is counted. -/
def Writes (e : Engine) : Command → Engine → Prop
  | .route, e' | .reset _, e' =>
    ∃ routes connections cursors metrics, e' = { e with routes, connections, cursors, metrics }
  | .connection _, e' => ∃ connections cursors, e' = { e with connections, cursors }
  | .interface, e' => ∃ interfaces cursors, e' = { e with interfaces, cursors }
  | .setTimeout, e' => ∃ timeouts, e' = { e with timeouts }
  | .lockSession, e' | .unlockSession, e' => ∃ session, e' = { e with session }
  | .connectionChange _, e' | .healthEvent, e' => e' = e

theorem Writes.self (e : Engine) (command : Command) : e.Writes command e := by
  cases command <;> simp only [Writes] <;>
    first | exact ⟨_, _, _, _, rfl⟩ | exact ⟨_, _, rfl⟩ | exact ⟨_, rfl⟩

theorem dropRoute_writes (e : Engine) (id : UInt32) :
    ∃ routes connections metrics, (e.dropRoute id).1 = { e with routes, connections, metrics } := by
  cases h : e.routes.get? id with
  | none =>
    rw [dropRoute_of_get?_eq_none h]
    exact ⟨_, _, _, rfl⟩
  | some r =>
    rw [dropRoute_of_get? h]
    simp only [families, List.foldl_cons, List.foldl_nil, cascade_eq]
    exact ⟨_, _, _, rfl⟩

theorem fst_dropRoutes_cons (e : Engine) (id : UInt32) (ids : List UInt32) :
    (e.dropRoutes (id :: ids)).1 = ((e.dropRoute id).1.dropRoutes ids).1 := rfl

theorem dropRoutes_writes (e : Engine) (ids : List UInt32) :
    ∃ routes connections metrics, (e.dropRoutes ids).1 = { e with routes, connections, metrics } := by
  induction ids generalizing e with
  | nil => exact ⟨_, _, _, rfl⟩
  | cons id ids ih =>
    obtain ⟨_, _, _, first⟩ := dropRoute_writes e id
    obtain ⟨_, _, _, rest⟩ := ih (e.dropRoute id).1
    rw [fst_dropRoutes_cons, rest, first]
    exact ⟨_, _, _, rfl⟩

theorem list_writes (e : Engine) (r : Resource) (action : Action) :
    e.Writes r.command (e.list r action).engine := by
  obtain ⟨c, hc⟩ := list_engine e r action
  rw [hc]
  cases r with
  | routes => exact ⟨_, _, _, _, rfl⟩
  | connections | interfaces => exact ⟨_, _, rfl⟩

theorem settled_writes {x : Except Status Engine} (h : ∀ e', x = .ok e' → e.Writes command e') :
    e.Writes command (e.settled x).engine := by
  cases x with
  | ok e' => exact h e' rfl
  | error _ => exact .self e command

theorem handleRoute_writes (e : Engine) (client : ClientId) (action : Action) (r : Wire.Route) :
    e.Writes .route (e.handleRoute client action r).engine := by
  have handled := handleRoute_handled e client action r
  generalize e.handleRoute client action r = o at handled
  cases handled with
  | registered => exact ⟨_, _, _, _, rfl⟩
  | dropped =>
    obtain ⟨_, _, _, h⟩ := dropRoute_writes e r.id
    exact ⟨_, _, _, _, h⟩
  | listed => exact list_writes e .routes _
  | refused => exact .self e .route

theorem modifyFound_writes {c : Wire.Connection} {g : Tracked → Tracked} (f : Family)
    (h : e.modifyFound c g = .ok e') : e.Writes (.connection f) e' := by
  obtain ⟨seq, -, rfl⟩ := modifyFound_eq_ok h
  exact ⟨_, _, rfl⟩

theorem handleConnection_writes (e : Engine) (action : Action) (c : Wire.Connection) (now : Nat)
    (f : Family) : e.Writes (.connection f) (e.handleConnection action c now).engine := by
  cases action with
  | register =>
    refine settled_writes fun e' h => ?_
    obtain ⟨-, _, _, -, rfl⟩ := addConnection_eq_ok h
    exact ⟨_, _, rfl⟩
  | deregister =>
    refine settled_writes fun e' h => ?_
    obtain ⟨seq, -, rfl⟩ := removeConnection_eq_ok h
    exact ⟨_, _, rfl⟩
  | update => exact settled_writes fun e' h => modifyFound_writes f h
  | keepAlive => exact settled_writes fun e' h => modifyFound_writes f h
  | query | queryCont =>
    rw [handleConnection_list e c now rfl]
    exact list_writes e (.connections c.family) _
  | removed => exact .self e _

theorem handleInterface_writes (e : Engine) (client : ClientId) (action : Action) (i : Interface) :
    e.Writes .interface (e.handleInterface client action i).engine := by
  cases action with
  | update =>
    rw [handleInterface]
    split
    · refine settled_writes fun e' h => ?_
      obtain ⟨_, -, rfl⟩ := map_eq_ok_iff.1 h
      exact ⟨_, _, rfl⟩
    · exact .self e _
  | query | queryCont =>
    rw [handleInterface_list e client i rfl]
    exact list_writes e .interfaces _
  | register | deregister | keepAlive | removed => exact .self e _

theorem reset_writes (e : Engine) (f : Family) : e.Writes (.reset f) (e.reset f).1 := by
  obtain ⟨_, _, _, h⟩ := dropRoutes_writes (e.withConnections f (e.connections.get f).clear)
    (e.routes.ids (some f))
  exact ⟨_, _, _, _, h⟩

/-- A command writes no more than it is about. -/
theorem perform_writes (e : Engine) (client : ClientId) (command : Command) (action : Option Action)
    (r : Wire.Record) (now : Nat) : e.Writes command (e.perform client command action r now).engine := by
  unfold perform
  split
  · exact handleRoute_writes ..
  · exact handleConnection_writes ..
  · exact reset_writes ..
  · next t =>
    refine settled_writes fun e' h => ?_
    unfold setTimeout at h
    split at h
    · cases h
    · obtain ⟨_, -, rfl⟩ := map_eq_ok_iff.1 h
      exact ⟨_, rfl⟩
  · refine settled_writes fun e' h => ?_
    obtain ⟨_, -, rfl⟩ := map_eq_ok_iff.1 h
    exact ⟨_, rfl⟩
  · refine settled_writes fun e' h => ?_
    obtain ⟨_, -, rfl⟩ := map_eq_ok_iff.1 h
    exact ⟨_, rfl⟩
  · exact handleInterface_writes ..
  · exact .self e _

theorem Writes.running (h : e.Writes command e') : e'.running = e.running := by
  cases command <;> grind [Writes]

theorem Writes.subscribers (h : e.Writes command e') : e'.subscribers = e.subscribers := by
  cases command <;> grind [Writes]

theorem Writes.session (h : e.Writes command e') (hl : command ≠ .lockSession)
    (hu : command ≠ .unlockSession) : e'.session = e.session := by
  cases command <;> grind [Writes]

theorem Writes.interfaces (h : e.Writes command e') (hi : command ≠ .interface) :
    e'.interfaces = e.interfaces := by
  cases command <;> grind [Writes]

theorem Writes.routes (h : e.Writes command e') (hc : command ≠ .route) (hr : ∀ f, command ≠ .reset f) :
    e'.routes = e.routes := by
  cases command <;> grind [Writes]

theorem Writes.connections (h : e.Writes command e') (hc : command ≠ .route) (hr : ∀ f, command ≠ .reset f)
    (hf : ∀ f, command ≠ .connection f) : e'.connections = e.connections := by
  cases command <;> grind [Writes]

theorem Writes.metrics (h : e.Writes command e') (hc : command ≠ .route) (hr : ∀ f, command ≠ .reset f) :
    e'.metrics = e.metrics := by
  cases command <;> grind [Writes]

/-! ## What a command does to the tables -/

theorem events_settled (e : Engine) (x : Except Status Engine) : (e.settled x).events = [] := by
  cases x <;> rfl

theorem events_list (e : Engine) (r : Resource) (action : Action) : (e.list r action).events = [] := by
  unfold list
  split <;> rfl

theorem events_handleConnection (e : Engine) (action : Action) (c : Wire.Connection) (now : Nat) :
    (e.handleConnection action c now).events = [] := by
  cases action with
  | register | deregister | update | keepAlive => exact events_settled ..
  | query | queryCont =>
    rw [handleConnection_list e c now rfl]
    exact events_list ..
  | removed => rfl

theorem events_handleInterface (e : Engine) (client : ClientId) (action : Action) (i : Interface) :
    (e.handleInterface client action i).events = [] := by
  cases action with
  | update =>
    rw [handleInterface]
    split
    · exact events_settled ..
    · rfl
  | query | queryCont =>
    rw [handleInterface_list e client i rfl]
    exact events_list ..
  | register | deregister | keepAlive | removed => rfl

/-- A command is one about a route, or about a connection, or resets a family; and if it is
something else, it leaves these tables and what is counted alone, and brings no events. -/
inductive Performed (e : Engine) (client : ClientId) (now : Nat) :
    Command → Option Action → Wire.Record → Outcome → Prop
  | route (action : Action) (r : Wire.Route) :
      Performed e client now .route (some action) (.route r) (e.handleRoute client action r)
  | connection (f : Family) (action : Action) (c : Wire.Connection) :
      Performed e client now (.connection f) (some action) (.connection c) (e.handleConnection action c now)
  | reset (f : Family) (action : Option Action) (r : Wire.Record) :
      Performed e client now (.reset f) action r ⟨(e.reset f).1, .ok, (e.reset f).2⟩
  | beside {command : Command} {action : Option Action} {r : Wire.Record} {o : Outcome}
      (resets : ∀ f, command ≠ .reset f) (routes : o.engine.routes = e.routes)
      (connections : o.engine.connections = e.connections) (metrics : o.engine.metrics = e.metrics)
      (events : o.events = []) : Performed e client now command action r o

theorem perform_performed (e : Engine) (client : ClientId) (command : Command) (action : Option Action)
    (r : Wire.Record) (now : Nat) :
    Performed e client now command action r (e.perform client command action r now) := by
  have beside (hc : command ≠ .route) (hr : ∀ f, command ≠ .reset f) (hf : ∀ f, command ≠ .connection f)
      (events : (e.perform client command action r now).events = []) :
      Performed e client now command action r (e.perform client command action r now) := by
    have writes := perform_writes e client command action r now
    exact .beside hr (writes.routes hc hr) (writes.connections hc hr hf) (writes.metrics hc hr) events
  revert beside
  unfold perform
  split <;> intro beside
  · exact .route ..
  · exact .connection ..
  · exact .reset ..
  · exact beside (by simp) (by simp) (by simp) (events_settled ..)
  · exact beside (by simp) (by simp) (by simp) (events_settled ..)
  · exact beside (by simp) (by simp) (by simp) (events_settled ..)
  · exact beside (by simp) (by simp) (by simp) (events_handleInterface ..)
  · next reset _ _ _ _ _ => exact .beside (fun f same => by simp_all) rfl rfl rfl rfl

/-! ## What the host's calls write -/

theorem fst_ageFamily (e : Engine) (f : Family) (now : Nat) :
    (e.ageFamily f now).1 =
      (takeConnections f e ((e.connections.get f).expired e.timeouts now)).1.count .aged
        (.ofNat (takeConnections f e ((e.connections.get f).expired e.timeouts now)).2.length) := rfl

theorem ageFamily_writes (e : Engine) (f : Family) (now : Nat) :
    ∃ connections metrics, (e.ageFamily f now).1 = { e with connections, metrics } := by
  rw [fst_ageFamily, fst_takeConnections]
  exact ⟨_, _, rfl⟩

theorem age_writes (e : Engine) (now : Nat) :
    ∃ connections metrics, (e.age now).1 = { e with connections, metrics } := by
  obtain running | stopped := Bool.eq_false_or_eq_true e.running
  · obtain ⟨_, _, first⟩ := ageFamily_writes e .v4 now
    obtain ⟨_, _, second⟩ := ageFamily_writes (e.ageFamily .v4 now).1 .v6 now
    rw [fst_age running, second, first]
    exact ⟨_, _, rfl⟩
  · rw [age_of_not_running stopped]
    exact ⟨_, _, rfl⟩

theorem account_writes (e : Engine) (f : Family) (key : FlowKey) (octets : UInt64) (now : Nat) :
    ∃ routes connections, (e.account f key octets now).1 = { e with routes, connections } := by
  obtain ⟨-, missed⟩ | ⟨_, _, _, -, -, counted⟩ := account_cases e f key octets now
  · exact ⟨_, _, congrArg Prod.fst missed⟩
  · exact ⟨_, _, congrArg Prod.fst counted⟩

theorem acquire_writes (e : Engine) (client : ClientId) :
    ∃ session, (e.step (.acquire client)).1 = { e with session } := by
  simp only [step]
  cases hs : e.acquire client with
  | error _ => exact ⟨_, rfl⟩
  | ok e' =>
    obtain ⟨session, -, rfl⟩ := map_eq_ok_iff.1 hs
    exact ⟨session, rfl⟩

theorem shutdown_writes (e : Engine) :
    ∃ subscribers session metrics running,
      e.shutdown = { e with subscribers, session, metrics, running } := by
  unfold shutdown
  split
  · exact ⟨_, _, _, _, rfl⟩
  · exact ⟨_, _, _, _, rfl⟩

/-! ## What a message comes to -/

/-- The outcome of a message, up to what is counted. -/
inductive Answered (e : Engine) (client : ClientId) (m : Message) (now : Nat) : Outcome → Prop
  | performed {command : Command} {action : Option Action} {r : Wire.Record} (metrics : Metrics)
      (running : e.running = true) (hm : m.Carries command action r) :
      Answered e client m now
        { e.perform client command action r now with
          engine := { (e.perform client command action r now).engine with metrics } }
  | joined (backChannel : SocketAddress) (metrics : Metrics) (running : e.running = true)
      (hk : m.kind = .register) :
      Answered e client m now
        ⟨{ e with subscribers := e.subscribers.register client backChannel, metrics }, .ok, []⟩
  | left (metrics : Metrics) (running : e.running = true) (hk : m.kind = .unregister) :
      Answered e client m now
        ⟨{ e with
            subscribers := e.subscribers.unregister client
            session := e.session.releaseFor client
            metrics }, .ok, []⟩
  | refused (status : Status) (metrics : Metrics) (hs : status ≠ .ok)
      (hk : e.running = true → m.kind ≠ .unregister) :
      Answered e client m now (({ e with metrics } : Engine).refused status)

theorem dispatch_answered (e : Engine) (client : ClientId) (m : Message) (now : Nat) :
    Answered e client m now (e.dispatch client m now) := by
  obtain hr | hr := Bool.eq_false_or_eq_true e.running
  · by_cases hk : m.kind = .command
    · obtain ⟨command, action, r, hm⟩ | ⟨status, hs, refuses⟩ := execute_cases hk
      · rw [dispatch_of_carries hr hm]
        exact .performed _ hr hm
      · have outcome : e.dispatch client m now =
            ({ e with metrics := e.noteSizes.metrics.answered m.code status.isOk } : Engine).refused status := by
          rw [dispatch, handle_command hr hk, refuses]
          rfl
        rw [outcome]
        exact .refused status _ hs fun _ => by simp [hk]
    · rw [dispatch, handle, if_pos hr]
      split
      · next hk' =>
        split
        · exact .joined _ _ hr hk'
        · exact .refused .wrongSize _ (by decide) fun _ => by simp [hk']
      · next hk' => exact .left _ hr hk'
      · next hk' => exact absurd hk' hk
  · rw [dispatch, handle_of_not_running hr]
    exact .refused .internalFailure _ (by decide) fun h => by simp [hr] at h

/-- Every event is a message, however it comes, or octets that are none, or
something that the host does. -/
theorem Event.byMessage {motive : Event → Prop}
    (message : ∀ event client m now, event.message? = some (client, m, now) → motive event)
    (malformed : ∀ client octets now error, Message.decode octets = .error error →
      motive (.datagram client octets now))
    (age : ∀ now, motive (.age now)) (packet : ∀ f key octets now, motive (.packet f key octets now))
    (health : ∀ h, motive (.health h)) (register : ∀ client back, motive (.register client back))
    (unregister : ∀ client, motive (.unregister client))
    (unreachable : ∀ client, motive (.unreachable client)) (acquire : ∀ client, motive (.acquire client))
    (release : ∀ client, motive (.release client)) (shutdown : motive .shutdown) (event : Event) :
    motive event := by
  cases event with
  | message client m now => exact message _ client m now rfl
  | datagram client octets now =>
    cases hd : Message.decode octets with
    | error error => exact malformed client octets now error hd
    | ok m => exact message _ client m now (by simp [message?, hd, Except.toOption])
  | age now => exact age now
  | packet f key octets now => exact packet f key octets now
  | health h => exact health h
  | register client back => exact register client back
  | unregister client => exact unregister client
  | unreachable client => exact unreachable client
  | acquire client => exact acquire client
  | release client => exact release client
  | shutdown => exact shutdown

theorem Reachable.run (h : e.Reachable) (history : List Event) : (e.run history).Reachable := by
  obtain ⟨config, start, before, hs, rfl⟩ := h
  exact ⟨config, start, before ++ history, hs, run_append ..⟩

theorem step_of_malformed {client : ClientId} {octets : Bytes} {error : Error}
    (h : Message.decode octets = .error error) :
    e.step (.datagram client octets now) = (e.count .malformed 1, .malformed error) := by
  simp only [step, receive, h]

/-- An engine runs until it is shut down. -/
theorem running_step {event : Event} (h : event ≠ .shutdown) : (e.step event).1.running = e.running := by
  induction event using Event.byMessage with
  | message event client m now hm =>
    have answered := dispatch_answered e client m now
    rw [step_of_message hm]
    generalize e.dispatch client m now = o at answered
    cases answered with
    | performed => exact (perform_writes ..).running
    | joined | left | refused => rfl
  | malformed client octets now error hd => rw [step_of_malformed hd, count]
  | age now =>
    obtain ⟨_, _, aged⟩ := age_writes e now
    simp only [step, aged]
  | packet f key octets now =>
    obtain ⟨_, _, counted⟩ := account_writes e f key octets now
    simp only [step, counted]
  | acquire client =>
    obtain ⟨_, acquired⟩ := acquire_writes e client
    rw [acquired]
  | health | register | unregister | unreachable | release => rfl
  | shutdown => exact absurd rfl h

end Engine

end ControlPlane
