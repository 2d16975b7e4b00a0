/-
What can happen to an engine, and what it answers.

A history is a list of events. Instants are part of the events, so an engine
after a history depends on nothing else.
-/
import ControlPlane.Engine.Dispatch

namespace ControlPlane

namespace Engine

/-- Something that happens to an engine. -/
inductive Event where
  /-- A client sends a message. -/
  | message (client : ClientId) (m : Wire.Message) (now : Nat)
  /-- A client sends any octets. -/
  | datagram (client : ClientId) (octets : Bytes) (now : Nat)
  /-- Idle connections are looked for. -/
  | age (now : Nat)
  /-- A packet was forwarded. -/
  | packet (f : Family) (key : FlowKey) (octets : UInt64) (now : Nat)
  /-- The health monitor saw something. -/
  | health (event : Wire.HealthEvent)
  /-- The host announces a client's back-channel. -/
  | register (client : ClientId) (backChannel : SocketAddress)
  /-- The host forgets a client. -/
  | unregister (client : ClientId)
  /-- An event could not be delivered to a client. -/
  | unreachable (client : ClientId)
  /-- A part of the host takes the lock. -/
  | acquire (client : ClientId)
  /-- A part of the host gives the lock back. -/
  | release (client : ClientId)
  | shutdown

/-- What the engine answers to an event. -/
inductive Answer where
  /-- A reply for the sender, and events to deliver after it. -/
  | replied (reply : Wire.Message) (events : List Notification)
  /-- The octets were no message. -/
  | malformed (error : Error)
  /-- Events to deliver. -/
  | notified (events : List Notification)
  /-- Whether the packet or the client was known. -/
  | known (b : Bool)
  | status (s : Status)
  | done

/-- One event: the engine after it, and the answer. -/
def step (e : Engine) : Event → Engine × Answer
  | .message client m now =>
    let o := e.dispatch client m now
    (o.engine, .replied (o.reply.toMessage m.code) o.events)
  | .datagram client octets now =>
    match e.receive client octets now with
    | (e, .ok (reply, events)) => (e, .replied reply events)
    | (e, .error error) => (e, .malformed error)
  | .age now =>
    let (e, events) := e.age now
    (e, .notified events)
  | .packet f key octets now =>
    let (e, known) := e.account f key octets now
    (e, .known known)
  | .health event => (e, .notified (e.health event))
  | .register client backChannel => (e.registerClient client backChannel, .done)
  | .unregister client => (e.unregisterClient client, .known (e.subscribers.get? client).isSome)
  | .unreachable client => (e.markUnreachable client, .done)
  | .acquire client =>
    match e.acquire client with
    | .ok e => (e, .status .ok)
    | .error status => (e, .status status)
  | .release client => (e.release client, .done)
  | .shutdown => (e.shutdown, .done)

/-- The engine after a history. -/
def run (e : Engine) (history : List Event) : Engine := history.foldl (fun e event => (e.step event).1) e

/-- The answers to a history, one for each event. -/
def answers (e : Engine) : List Event → List Answer
  | [] => []
  | event :: history => (e.step event).2 :: answers (e.step event).1 history

/-- An engine that a configuration and a history lead to. -/
def Reachable (e : Engine) : Prop := ∃ config start history, ofConfig config = .ok start ∧ start.run history = e

@[simp] theorem run_nil (e : Engine) : e.run [] = e := rfl

@[simp] theorem run_cons (e : Engine) (event : Event) (history : List Event) :
    e.run (event :: history) = (e.step event).1.run history := rfl

theorem run_append (e : Engine) (h₁ h₂ : List Event) : e.run (h₁ ++ h₂) = (e.run h₁).run h₂ := by
  simp [run]

theorem Reachable.start {config : Config} {e : Engine} (h : ofConfig config = .ok e) : e.Reachable :=
  ⟨config, e, [], h, rfl⟩

theorem Reachable.step {e : Engine} (h : e.Reachable) (event : Event) : (e.step event).1.Reachable := by
  obtain ⟨config, start, history, hs, rfl⟩ := h
  exact ⟨config, start, history ++ [event], hs, by rw [run_append]; rfl⟩

/-- What holds at the start and is kept by every event holds of every reachable
engine. -/
theorem Reachable.induct {P : Engine → Prop} (start : ∀ config e, ofConfig config = .ok e → P e)
    (step : ∀ e event, P e → P (e.step event).1) {e : Engine} (h : e.Reachable) : P e := by
  obtain ⟨config, e₀, history, hs, rfl⟩ := h
  have h₀ := start config e₀ hs
  clear hs
  induction history generalizing e₀ with
  | nil => exact h₀
  | cons event history ih => exact ih _ (step _ _ h₀)

end Engine

end ControlPlane
