/-
What an engine sends reaches its receiver as what it is.

A reply carries a record only when it gives an entry of a listing, and then that of a
stored entry (`Engine.shown`); an event carries the record of what went away, or of what
the health monitor saw. All of these are written under a command of their type, so their
receiver can read them (`Wire.Record.decode_written`), and the largest of them leaves room
for a status.

Main result: `emissions_readable`.
-/
import ControlPlane.Proofs.Engine.Aging
import ControlPlane.Proofs.Engine.Canonical
import ControlPlane.Proofs.Engine.Departure
import ControlPlane.Proofs.Engine.Refusal
import ControlPlane.Proofs.Wire.Reading

namespace ControlPlane

/-! ## Messages that arrive -/

namespace Wire

/-- A message that arrives as it was sent: its payload is within the limit, and its datagram
gives it back. -/
structure Message.Arrives (m : Message) : Prop where
  fits : m.payload.length ≤ maxPayload
  back : Message.decode m.encode = .ok m

/-- A message that holds a record of its command's type, with an action where the command has
one. -/
def Message.Tells (m : Message) (command : Command) (action : Option Action) : Prop :=
  ∃ r : Record, r.Belongs command ∧ m.Carries command action r

namespace Record

variable {command : Command} {r : Record}

theorem arrives_written (code : UInt16) (action : Action) (r : Record) :
    Message.Arrives ⟨.command, code, r.payload action⟩ :=
  ⟨length_payload_le action r, Message.decode_encode (length_payload_le action r)⟩

theorem tells_written (belongs : r.Belongs command) (action : Action) :
    Message.Tells ⟨.command, command.code, r.payload action⟩ command
      (if command.hasAction then some action else none) := by
  obtain ⟨r', belongs', read⟩ := decode_written belongs action
  refine ⟨r', belongs', rfl, rfl, read.trans ?_⟩
  cases command.hasAction <;> rfl

end Record

/-- A reply arrives when its record is empty or was written. -/
theorem Reply.arrives {reply : Reply} (room : reply.record.length + 2 ≤ maxPayload) (code : UInt16) :
    (reply.toMessage code).Arrives :=
  ⟨(reply.length_payload code).trans_le room, decode_toMessage room code⟩

end Wire

namespace Engine

open Wire (Message)

variable {e : Engine} {client : ClientId} {m : Message} {now : Nat} {action : Action} {r : Resource}

/-! ## Entries of listings -/

/-- What is stored of a kind of resource, as records, the oldest first. -/
def shown (e : Engine) : Resource → List Wire.Record
  | .routes => e.routes.routes.values.map fun r => .route r.toWire
  | .connections f => (e.connections.get f).connections.values.map fun entry => .connection entry.connection
  | .interfaces => e.interfaces.interfaces.values.map .interface

theorem values_records (e : Engine) (r : Resource) (action : Action) :
    (e.records r action).values = (e.shown r).map (·.payload action) := by
  cases r <;> simp only [records, shown, Sequenced.values_map, List.map_map] <;> rfl

/-- What is shown of a resource can be written under its command. -/
theorem Reachable.belongs_of_shown (h : e.Reachable) {x : Wire.Record} (hx : x ∈ e.shown r) :
    x.Belongs r.command := by
  cases r with
  | routes | interfaces =>
    obtain ⟨_, -, rfl⟩ := List.mem_map.1 hx
    rfl
  | connections f =>
    obtain ⟨entry, stored, rfl⟩ := List.mem_map.1 hx
    obtain ⟨seq, stored⟩ := Sequenced.mem_values_iff.1 stored
    obtain ⟨config, start, history, started, rfl⟩ := h
    exact .inl (congrArg Command.connection (family_of_stored started stored).symm)

theorem mem_of_ahead? {α : Type} {c : Cursor} {start : Bool} {t : Sequenced α} {seq : Nat} {a : α}
    (h : c.ahead? start t.table = some (seq, a)) : a ∈ t.values := by
  unfold Cursor.ahead? at h
  split at h
  · exact Sequenced.mem_values_iff.2 ⟨seq, (Sequenced.first?_eq_some h).1⟩
  · obtain ⟨last, -, h⟩ := Option.bind_eq_some_iff.1 h
    exact Sequenced.mem_values_iff.2 ⟨seq, (Sequenced.after?_eq_some h).1⟩

theorem record_list (e : Engine) (r : Resource) (action : Action) (ok : (e.list r action).reply.status = .ok) :
    ∃ x ∈ e.shown r, (e.list r action).reply.record = x.payload action := by
  unfold list at ok ⊢
  split at ok
  · next seq record found =>
    have stored := mem_of_ahead? found
    rw [values_records] at stored
    obtain ⟨x, hx, written⟩ := List.mem_map.1 stored
    exact ⟨x, hx, written.symm⟩
  · cases ok

/-! ## Replies -/

theorem record_settled (e : Engine) (x : Except Status Engine) : (e.settled x).reply.record = [] := by
  cases x <;> rfl

theorem record_handleRoute (e : Engine) (client : ClientId) (r : Wire.Route) (hl : action.lists = false) :
    (e.handleRoute client action r).reply.record = [] := by
  have handled := handleRoute_handled e client action r
  generalize e.handleRoute client action r = o at handled
  cases handled with
  | registered | dropped | refused => rfl
  | listed ha => rw [hl] at ha; cases ha

theorem record_handleConnection (e : Engine) (c : Wire.Connection) (now : Nat) (hl : action.lists = false) :
    (e.handleConnection action c now).reply.record = [] := by
  cases action with
  | register | deregister | update | keepAlive => exact record_settled ..
  | query | queryCont => cases hl
  | removed => rfl

theorem record_handleInterface (e : Engine) (client : ClientId) (i : Interface) (hl : action.lists = false) :
    (e.handleInterface client action i).reply.record = [] := by
  cases action with
  | update =>
    rw [handleInterface]
    split
    · exact record_settled ..
    · rfl
  | query | queryCont => cases hl
  | register | deregister | keepAlive | removed => rfl

/-- A command that asks for no listing is answered without a record. -/
theorem record_perform {command : Command} {action : Option Action} {r : Wire.Record}
    (hm : m.Carries command action r) (hn : m.asks? = none) :
    (e.perform client command action r now).reply.record = [] := by
  have lists := hm.lists_eq_false hn
  unfold perform
  split
  · exact record_handleRoute e client _ (lists _ _ rfl rfl)
  · exact record_handleConnection e _ now (lists _ _ rfl rfl)
  · rfl
  · exact record_settled ..
  · exact record_settled ..
  · exact record_settled ..
  · exact record_handleInterface e client _ (lists _ _ rfl rfl)
  · rfl

theorem record_of_not_asked (hn : m.asks? = none) : (e.dispatch client m now).reply.record = [] := by
  have answered := dispatch_answered e client m now
  generalize e.dispatch client m now = o at answered
  cases answered with
  | performed _ _ hm => exact record_perform hm hn
  | joined | left | refused => rfl

theorem Reachable.record_of_failed (h : e.Reachable) (failed : (e.dispatch client m now).reply.status ≠ .ok) :
    (e.dispatch client m now).reply.record = [] := by
  obtain ⟨status, cursors, refused⟩ := handle_refused h.noted failed
  show (e.handle client m now).reply.record = []
  rw [refused]
  rfl

theorem record_of_asked (ha : m.asks? = some (r, action)) (ok : (e.dispatch client m now).reply.status = .ok) :
    ∃ x ∈ e.shown r, (e.dispatch client m now).reply.record = x.payload action := by
  have running := running_of_ok ok
  rw [dispatch_of_asks running ha] at ok ⊢
  exact record_list e r action ok

/-- A reply leaves room for its status. -/
theorem Reachable.room (h : e.Reachable) (client : ClientId) (m : Message) (now : Nat) :
    (e.dispatch client m now).reply.record.length + 2 ≤ maxPayload := by
  by_cases ok : (e.dispatch client m now).reply.status = .ok
  · cases ha : m.asks? with
    | none =>
      rw [record_of_not_asked ha]
      decide
    | some asked =>
      obtain ⟨x, -, written⟩ := record_of_asked ha ok
      rw [written, Wire.Record.length_payload]
      exact x.size_add_two_le
  · rw [h.record_of_failed ok]
    decide

/-! ## Events -/

/-- Every event of a command tells of a removed route. -/
theorem Reachable.event_of_dispatch (h : e.Reachable) {n : Notification}
    (hn : n ∈ (e.dispatch client m now).events) :
    n.message.Arrives ∧ n.message.Tells .route (some .removed) := by
  rw [dispatch_farewells h.sound.ids client m now] at hn
  obtain ⟨x, -, told⟩ := List.mem_filterMap.1 hn
  obtain ⟨owner, -, told⟩ := Option.bind_eq_some_iff.1 told
  obtain ⟨subscriber, -, rfl⟩ := Option.map_eq_some_iff.1 told
  have belongs : (Wire.Record.route x.2.toWire).Belongs .route := rfl
  exact ⟨Wire.Record.arrives_written _ .removed (.route x.2.toWire), Wire.Record.tells_written belongs .removed⟩

/-- Every event of aging tells of a removed connection. -/
theorem event_of_age {n : Notification} (hn : n ∈ (e.age now).2) :
    n.message.Arrives ∧ ∃ f, n.message.Tells (.connectionChange f) (some .removed) := by
  obtain running | stopped := Bool.eq_false_or_eq_true e.running
  · rw [age_eq running] at hn
    obtain ⟨f, -, hn⟩ := List.mem_flatMap.1 hn
    obtain ⟨x, -, hn⟩ := List.mem_flatMap.1 hn
    obtain ⟨same, -⟩ := Subscribers.mem_broadcast.1 hn
    let c := x.2.connection
    have belongs : (Wire.Record.connection c).Belongs (.connectionChange c.family) := .inr rfl
    rw [same]
    exact ⟨Wire.Record.arrives_written _ .removed (.connection c), c.family,
      Wire.Record.tells_written belongs .removed⟩
  · rw [age_of_not_running stopped] at hn
    cases hn

/-- What the health monitor saw is told without an action. -/
theorem event_of_health {event : Wire.HealthEvent} {n : Notification} (hn : n ∈ e.health event) :
    n.message.Arrives ∧ n.message.Tells .healthEvent none := by
  obtain ⟨same, -⟩ := Subscribers.mem_broadcast.1 hn
  have belongs : (Wire.Record.health event).Belongs .healthEvent := rfl
  rw [same]
  exact ⟨Wire.Record.arrives_written _ .removed (.health event), Wire.Record.tells_written belongs .removed⟩

/-! ## Main result -/

/-- What the sender of a message can make of the reply to it. -/
structure Legible (m : Message) (reply : Wire.Reply) : Prop where
  arrives : (reply.toMessage m.code).Arrives
  kind : (reply.toMessage m.code).kind = .command
  code : (reply.toMessage m.code).code = m.code
  back : Wire.Reply.ofMessage (reply.toMessage m.code) = .ok reply
  /-- An entry of a listing can be read under the code that was asked with. -/
  entry : ∀ r action, m.asks? = some (r, action) → reply.status = .ok →
    Message.Tells ⟨.command, m.code, reply.record⟩ r.command (some action)
  bare : m.asks? = none ∨ reply.status ≠ .ok → reply.record = []

theorem Reachable.legible (h : e.Reachable) (client : ClientId) (m : Message) (now : Nat) :
    Legible m (e.dispatch client m now).reply where
  arrives := Wire.Reply.arrives (h.room client m now) m.code
  kind := rfl
  code := rfl
  back := Wire.Reply.ofMessage_toMessage _ _
  entry r action ha ok := by
    obtain ⟨x, stored, written⟩ := record_of_asked ha ok
    obtain ⟨-, _, carries⟩ := Message.asks?_eq_some ha
    have told := Wire.Record.tells_written (h.belongs_of_shown stored) action
    have acts : r.command.hasAction = true := by cases r <;> rfl
    rwa [if_pos acts, ← written, ← carries.2.1] at told
  bare none_or_failed := none_or_failed.elim record_of_not_asked h.record_of_failed

/-- The messages of an answer: the reply, then the events. -/
def Answer.messages : Answer → List Message
  | .replied reply events => reply :: events.map (·.message)
  | .notified events => events.map (·.message)
  | .malformed _ | .known _ | .status _ | .done => []

/-- Whatever happens to a reachable engine, all that it sends arrives. -/
theorem Reachable.arrives_of_step (h : e.Reachable) (event : Event) {x : Message}
    (hx : x ∈ (e.step event).2.messages) : x.Arrives := by
  have answered : ∀ client m now,
      x ∈ (e.dispatch client m now).reply.toMessage m.code ::
        (e.dispatch client m now).events.map (·.message) → x.Arrives := by
    intro client m now hx
    obtain rfl | told := List.mem_cons.1 hx
    · exact (h.legible client m now).arrives
    · obtain ⟨n, hn, rfl⟩ := List.mem_map.1 told
      exact (h.event_of_dispatch hn).1
  cases event with
  | message client m now => exact answered client m now hx
  | datagram client octets now =>
    rw [Engine.step, receive] at hx
    cases read : Message.decode octets with
    | error => simp [read, Answer.messages] at hx
    | ok m =>
      rw [read] at hx
      exact answered client m now hx
  | age now =>
    obtain ⟨n, hn, rfl⟩ := List.mem_map.1 hx
    exact (event_of_age hn).1
  | health event =>
    obtain ⟨n, hn, rfl⟩ := List.mem_map.1 hx
    exact (event_of_health hn).1
  | acquire client =>
    rw [Engine.step] at hx
    split at hx <;> cases hx
  | packet | register | unregister | unreachable | release | shutdown => cases hx

/-- **Whatever an engine sends can be read.** Each message that a reachable engine sends, at
whatever event, is within the limit and is read from its datagram as it was sent. A reply is
a command message under the code of what it answers and is read as the reply; only an entry
of a listing comes with a record, of the type and under the action that was asked for. An
event is read as a record as well: of a removed route after a message, of a removed
connection after aging, and without an action from the health monitor. -/
theorem emissions_readable {e : Engine} (h : e.Reachable) :
    (∀ client m now, Legible m (e.dispatch client m now).reply ∧
      ∀ n ∈ (e.dispatch client m now).events, n.message.Tells .route (some .removed)) ∧
      (∀ now, ∀ n ∈ (e.age now).2, ∃ f, n.message.Tells (.connectionChange f) (some .removed)) ∧
      (∀ event, ∀ n ∈ e.health event, n.message.Tells .healthEvent none) ∧
      ∀ event, ∀ x ∈ (e.step event).2.messages, x.Arrives :=
  ⟨fun client m now => ⟨h.legible client m now, fun _ hn => (h.event_of_dispatch hn).2⟩,
    fun _ _ hn => (event_of_age hn).2, fun _ _ hn => (event_of_health hn).2,
    fun event _ hx => h.arrives_of_step event hx⟩

/-- A route is listed, then dropped, for a client with a back-channel, and the connections
are too old; a client that asks after the shutdown is answered as well. -/
theorem emissions_readable_small :
    let e := (Small.engine.step (.register Small.client Small.client.address)).1
    let query := Small.message .route .query (.route (.ofId 0))
    let drop := Small.message .route .deregister (.route (.ofId 7))
    let listed := (e.dispatch Small.client query 0).reply
    e.Reachable ∧ query.asks? = some (.routes, .query) ∧ listed.status = .ok ∧
      Message.Tells ⟨.command, query.code, listed.record⟩ .route (some .query) ∧
      (e.dispatch Small.client drop 0).events.length = 1 ∧
      (∀ n ∈ (e.dispatch Small.client drop 0).events, n.message.Tells .route (some .removed)) ∧
      (e.age 7200001).2.length = 2 ∧
      (∀ n ∈ (e.age 7200001).2, ∃ f, n.message.Tells (.connectionChange f) (some .removed)) ∧
      ((e.step .shutdown).1.dispatch Small.client query 0).reply.status = .internalFailure ∧
      ∀ x ∈ ((e.step .shutdown).1.step (.message Small.client query 0)).2.messages, x.Arrives := by
  intro e query drop listed
  have reachable : e.Reachable := Small.engine_reachable.step _
  have asks : query.asks? = some (.routes, .query) := by decide +kernel
  have ok : listed.status = .ok := by decide +kernel
  obtain ⟨answers, aged, -, -⟩ := emissions_readable reachable
  obtain ⟨-, -, -, stopped⟩ := emissions_readable (reachable.step .shutdown)
  exact ⟨reachable, asks, ok, (answers Small.client query 0).1.entry _ _ asks ok, by decide +kernel,
    (answers Small.client drop 0).2, by decide +kernel, aged 7200001, by decide +kernel, stopped _⟩

end Engine

end ControlPlane
