/-
What can happen to an engine, said once.

An event asks for a listing, which moves a cursor, or else edits the tables after
something beside them was set (`step_edits`). So what every single change (`Change`)
keeps is kept by every event (`step_changes`), and holds of every reachable engine
when it holds of a new one (`Reachable.keeps`).
-/
import ControlPlane.Engine.History
import ControlPlane.Proofs.Engine.Checks
import ControlPlane.Proofs.Engine.Listing

namespace ControlPlane.Engine

open Relation (ReflTransGen)

/-- A single change to an engine: an edit, or a change of something else than the
three tables. -/
inductive Change : Engine → Engine → Prop
  | edit {e e' : Engine} (h : Edit e e') : Change e e'
  | beside {e e' : Engine} (hr : e'.routes = e.routes) (hc : e'.connections = e.connections)
      (hi : e'.interfaces = e.interfaces) : Change e e'

/-- One change after the other. -/
abbrev Changes : Engine → Engine → Prop := ReflTransGen Change

variable {e e' : Engine} {client : ClientId} {m : Wire.Message} {now : Nat} {action : Action}

theorem Edits.changes (h : Edits e e') : Changes e e' := by
  induction h with
  | refl => exact .refl
  | tail _ he ih => exact ih.tail (.edit he)

/-! ## Messages -/

theorem settled_edits {x : Except Status Engine} (h : ∀ e', x = .ok e' → Edits e e') :
    Edits e (e.settled x).engine := by
  cases x with
  | ok e' => exact h e' rfl
  | error _ => exact .refl

theorem handleRoute_edits (e : Engine) (client : ClientId) (r : Wire.Route) (h : action.lists = false) :
    Edits e (e.handleRoute client action r).engine := by
  cases action with
  | register => exact settled_edits fun e' h => .single (addRoute_edit h)
  | deregister => exact dropRoute_edits e r.id
  | query | queryCont => cases h
  | keepAlive | removed | update => exact .refl

theorem handleConnection_edits (e : Engine) (c : Wire.Connection) (now : Nat) (h : action.lists = false) :
    Edits e (e.handleConnection action c now).engine := by
  cases action with
  | register => exact settled_edits fun e' h => .single (addConnection_edit h)
  | deregister => exact settled_edits fun e' h => .single (removeConnection_edit h)
  | update => exact settled_edits fun e' h => .single (updateConnection_edit h)
  | keepAlive => exact settled_edits fun e' h => .single (keepAlive_edit h)
  | query | queryCont => cases h
  | removed => exact .refl

theorem handleInterface_edits (e : Engine) (client : ClientId) (i : Interface) (h : action.lists = false) :
    Edits e (e.handleInterface client action i).engine := by
  cases action with
  | update =>
    rw [handleInterface]
    split
    · refine settled_edits fun e' h => ?_
      obtain ⟨t, ht, rfl⟩ := map_eq_ok_iff.1 h
      exact .single (.setFlags ht)
    · exact .refl
  | query | queryCont => cases h
  | register | deregister | keepAlive | removed => exact .refl

/-- A command that asks for no listing edits the tables, after the lock or the
timeouts were set. -/
theorem perform_edits (e : Engine) (client : ClientId) {command : Command} {action : Option Action}
    {r : Wire.Record} (now : Nat) (h : m.Carries command action r) (hn : m.asks? = none) :
    ∃ session timeouts,
      Edits { e with session, timeouts } (e.perform client command action r now).engine := by
  have lists := h.lists_eq_false hn
  unfold perform
  split
  · exact ⟨e.session, e.timeouts, handleRoute_edits e client _ (lists _ _ rfl rfl)⟩
  · exact ⟨e.session, e.timeouts, handleConnection_edits e _ now (lists _ _ rfl rfl)⟩
  · exact ⟨e.session, e.timeouts, reset_edits e _⟩
  · next t =>
    cases hs : e.setTimeout t with
    | error _ => exact ⟨e.session, e.timeouts, .refl⟩
    | ok e' =>
      unfold setTimeout at hs
      split at hs
      · cases hs
      · obtain ⟨timeouts, -, rfl⟩ := map_eq_ok_iff.1 hs
        exact ⟨e.session, timeouts, .refl⟩
  · cases hs : e.acquire client with
    | error _ => exact ⟨e.session, e.timeouts, .refl⟩
    | ok e' =>
      obtain ⟨session, -, rfl⟩ := map_eq_ok_iff.1 hs
      exact ⟨session, e.timeouts, .refl⟩
  · cases hs : e.session.unlock client with
    | error _ => exact ⟨e.session, e.timeouts, .refl⟩
    | ok session => exact ⟨session, e.timeouts, .refl⟩
  · exact ⟨e.session, e.timeouts, handleInterface_edits e client _ (lists _ _ rfl rfl)⟩
  · exact ⟨e.session, e.timeouts, .refl⟩

/-- A running engine answers a question with the next entry of the listing. -/
theorem dispatch_of_asks {r : Resource} (hr : e.running = true) (h : m.asks? = some (r, action)) :
    e.dispatch client m now =
      let o := e.list r action
      { o with
        engine :=
          { o.engine with
            metrics := o.engine.noteSizes.metrics.answered m.code o.reply.status.isOk } } := by
  obtain ⟨hl, record, hm⟩ := Wire.Message.asks?_eq_some h
  rw [dispatch_of_carries hr hm, perform_of_asks hl hm]

/-- A message that asks for no listing, or comes too late, edits the tables after
something beside them was set. -/
theorem dispatch_edits (e : Engine) (client : ClientId) (now : Nat)
    (h : m.asks? = none ∨ e.running = false) :
    ∃ session subscribers timeouts,
      Edits { e with session, subscribers, timeouts } (e.dispatch client m now).engine := by
  have handled : ∃ session subscribers timeouts,
      Edits { e with session, subscribers, timeouts } (e.handle client m now).engine := by
    obtain hr | hr := Bool.eq_false_or_eq_true e.running
    · have hn : m.asks? = none := h.resolve_right (by simp [hr])
      rw [handle, if_pos hr]
      split
      · split
        · next back _ =>
          exact ⟨e.session, e.subscribers.register client back, e.timeouts, .single (noteSizes_edit _)⟩
        · exact ⟨e.session, e.subscribers, e.timeouts, .refl⟩
      · exact ⟨e.session.releaseFor client, e.subscribers.unregister client, e.timeouts,
          .single (noteSizes_edit _)⟩
      · next hk =>
        obtain ⟨command, action, r, hm⟩ | ⟨status, -, hs⟩ := execute_cases hk
        · obtain ⟨session, timeouts, edits⟩ := perform_edits e client now hm hn
          rw [execute_of_carries hm]
          exact ⟨session, e.subscribers, timeouts, edits.tail (noteSizes_edit _)⟩
        · rw [hs]
          exact ⟨e.session, e.subscribers, e.timeouts, .single (noteSizes_edit _)⟩
    · rw [handle_of_not_running hr]
      exact ⟨e.session, e.subscribers, e.timeouts, .refl⟩
  obtain ⟨session, subscribers, timeouts, edits⟩ := handled
  exact ⟨session, subscribers, timeouts, edits.tail (.note _)⟩

/-! ## Events -/

/-- The message that reaches the engine, with its sender and the instant. -/
def Event.message? : Event → Option (ClientId × Wire.Message × Nat)
  | .message client m now => some (client, m, now)
  | .datagram client octets now => (Wire.Message.decode octets).toOption.map fun m => (client, m, now)
  | .age _ | .packet .. | .health _ | .register .. | .unregister _ | .unreachable _ | .acquire _
  | .release _ | .shutdown => none

/-- The listing that an event asks for. -/
def Event.asks? (event : Event) : Option (Resource × Action) := event.message?.bind fun s => s.2.1.asks?

/-- A message is answered in one way however it comes. -/
theorem step_of_message {event : Event} (h : event.message? = some (client, m, now)) :
    e.step event =
      let o := e.dispatch client m now
      (o.engine, .replied (o.reply.toMessage m.code) o.events) := by
  cases event with
  | message _ _ _ => cases h; rfl
  | datagram _ octets _ =>
    obtain ⟨m', hd, heq⟩ := Option.map_eq_some_iff.1 h
    cases heq
    cases ho : Wire.Message.decode octets with
    | error _ => rw [ho] at hd; cases hd
    | ok m' =>
      rw [ho] at hd
      cases hd
      simp only [step, receive, ho]
  | _ => cases h

/-- An event that asks for no listing, or comes too late, edits the tables after
something beside them was set. An engine that stopped stays so. -/
theorem step_edits (e : Engine) (event : Event) (h : event.asks? = none ∨ e.running = false) :
    ∃ session subscribers timeouts running, (running = true → e.running = true) ∧
      Edits { e with session, subscribers, timeouts, running } (e.step event).1 := by
  cases hm : event.message? with
  | some sent =>
    obtain ⟨client, m, now⟩ := sent
    rw [Event.asks?, hm] at h
    obtain ⟨session, subscribers, timeouts, edits⟩ := dispatch_edits e client now h
    rw [step_of_message hm]
    exact ⟨session, subscribers, timeouts, e.running, id, edits⟩
  | none =>
    cases event with
    | message _ _ _ => cases hm
    | datagram client octets now =>
      simp only [step, receive]
      cases ho : Wire.Message.decode octets with
      | error _ => exact ⟨e.session, e.subscribers, e.timeouts, e.running, id, .single (.note _)⟩
      | ok m => simp [Event.message?, ho, Except.toOption] at hm
    | age now => exact ⟨e.session, e.subscribers, e.timeouts, e.running, id, age_edits e now⟩
    | packet f key octets now =>
      exact ⟨e.session, e.subscribers, e.timeouts, e.running, id, account_edits e f key octets now⟩
    | health _ => exact ⟨e.session, e.subscribers, e.timeouts, e.running, id, .refl⟩
    | register client back =>
      exact ⟨e.session, e.subscribers.register client back, e.timeouts, e.running, id,
        .single (noteSizes_edit _)⟩
    | unregister client =>
      exact ⟨e.session.releaseFor client, e.subscribers.unregister client, e.timeouts, e.running, id,
        .single (noteSizes_edit _)⟩
    | unreachable client =>
      exact ⟨e.session, e.subscribers.markUnreachable client, e.timeouts, e.running, id, .refl⟩
    | acquire client =>
      simp only [step]
      cases hs : e.acquire client with
      | error _ => exact ⟨e.session, e.subscribers, e.timeouts, e.running, id, .refl⟩
      | ok e' =>
        obtain ⟨session, -, rfl⟩ := map_eq_ok_iff.1 hs
        exact ⟨session, e.subscribers, e.timeouts, e.running, id, .refl⟩
    | release client =>
      exact ⟨e.session.releaseFor client, e.subscribers, e.timeouts, e.running, id, .refl⟩
    | shutdown =>
      simp only [step, shutdown]
      split
      · exact ⟨.free, .empty, e.timeouts, false, Bool.noConfusion, .single (noteSizes_edit _)⟩
      · exact ⟨e.session, e.subscribers, e.timeouts, e.running, id, .refl⟩

/-- The engine after a question that a running engine answers. -/
theorem step_of_asks {event : Event} {r : Resource} (hr : e.running = true)
    (h : event.asks? = some (r, action)) : ∃ metrics, (e.step event).1 = { (e.list r action).engine with metrics } := by
  obtain ⟨⟨client, m, now⟩, hm, ha⟩ := Option.bind_eq_some_iff.1 h
  rw [step_of_message hm]
  simp only [dispatch_of_asks hr ha]
  exact ⟨_, rfl⟩

/-- An event moves the cursor of what it asks for, or edits the tables after
something beside them was set. -/
theorem step_cases (e : Engine) (event : Event) :
    (∃ r action c metrics, event.asks? = some (r, action) ∧ e.running = true ∧
        (e.step event).1 = { e.withCursor r c with metrics }) ∨
      ∃ session subscribers timeouts running, (running = true → e.running = true) ∧
        Edits { e with session, subscribers, timeouts, running } (e.step event).1 := by
  by_cases h : event.asks? = none ∨ e.running = false
  · exact .inr (step_edits e event h)
  · obtain ⟨ha, hr⟩ := not_or.1 h
    have running : e.running = true := Bool.not_eq_false _ ▸ hr
    obtain ⟨⟨r, action⟩, ha⟩ := Option.ne_none_iff_exists'.1 ha
    obtain ⟨metrics, hs⟩ := step_of_asks running ha
    obtain ⟨c, hc⟩ := list_engine e r action
    exact .inl ⟨r, action, c, metrics, ha, running, by rw [hs, hc]⟩

/-- An event changes the tables one single change after the other. -/
theorem step_changes (e : Engine) (event : Event) : Changes e (e.step event).1 := by
  obtain ⟨r, action, c, metrics, -, -, hs⟩ | ⟨_, _, _, _, -, edits⟩ := step_cases e event
  · rw [hs]
    cases r <;> exact .single (.beside rfl rfl rfl)
  · exact (ReflTransGen.single (.beside rfl rfl rfl)).trans edits.changes

/-- A new engine: no routes, no connections, the interfaces of the settings. -/
theorem ofConfig_eq_ok {config : Config} (h : ofConfig config = .ok e) :
    ∃ interfaces, InterfaceTable.ofSettings config.interfaces = .ok interfaces ∧
      e = {
        routes := .empty
        connections := ⟨.empty .v4, .empty .v6⟩
        interfaces
        cursors := ⟨.idle, ⟨.idle, .idle⟩, .idle⟩
        session := .free
        subscribers := .empty
        timeouts :=
          { tcp := config.timeouts.tcp.toNat, udp := config.timeouts.udp.toNat,
            other := config.timeouts.other.toNat }
        metrics := .zero
        running := true } := by
  unfold ofConfig at h
  cases hi : InterfaceTable.ofSettings config.interfaces with
  | error _ =>
    rw [hi] at h
    cases h
  | ok interfaces =>
    rw [hi] at h
    cases h
    exact ⟨interfaces, rfl, rfl⟩

theorem Changes.keeps {P : Engine → Prop} (change : ∀ e e', Change e e' → P e → P e') (h : Changes e e')
    (hp : P e) : P e' := by
  induction h with
  | refl => exact hp
  | tail _ hc ih => exact change _ _ hc ih

/-- What holds of every new engine and is kept by every single change holds of
every reachable engine. -/
theorem Reachable.keeps {P : Engine → Prop} (start : ∀ config e, ofConfig config = .ok e → P e)
    (change : ∀ e e', Change e e' → P e → P e') (h : e.Reachable) : P e :=
  h.induct start fun e event hp => (step_changes e event).keeps change hp

end ControlPlane.Engine
