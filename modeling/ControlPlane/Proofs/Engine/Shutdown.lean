/-
What is left of an engine after its shutdown.

Every message is answered with a failure then, idle connections stay, and a second shutdown
does nothing. So of all that the engine has nothing changes any more but the counts of the
messages that it turned away (`run_of_stopped`), and the shutdown itself was the last time
that clients, the lock and the noted sizes changed (`shutdown_freezes`).
-/
import ControlPlane.Proofs.Engine.Integrity
import ControlPlane.Proofs.Engine.Sizes

namespace ControlPlane

namespace Metrics

/-- Failed messages, counted under their codes. -/
def failedAll (m : Metrics) (codes : List UInt16) : Metrics := codes.foldl (fun m code => m.answered code false) m

@[simp] theorem failedAll_nil (m : Metrics) : m.failedAll [] = m := rfl

@[simp] theorem failedAll_cons (m : Metrics) (code : UInt16) (codes : List UInt16) :
    m.failedAll (code :: codes) = (m.answered code false).failedAll codes := rfl

/-- Nothing but the counts of commands is touched. -/
theorem failedAll_eq (m : Metrics) (codes : List UInt16) :
    m.failedAll codes = { m with commands := (m.failedAll codes).commands } := by
  induction codes generalizing m with
  | nil => rfl
  | cons code codes ih =>
    rw [failedAll_cons, ih]
    rfl

/-- Each code has as many more requests and failures as messages failed under it. -/
theorem command_failedAll (m : Metrics) (codes : List UInt16) (code : UInt16) :
    (m.failedAll codes).command code =
      { requests := (m.command code).requests + .ofNat (codes.count code)
        failures := (m.command code).failures + .ofNat (codes.count code) } := by
  induction codes generalizing m with
  | nil => simp
  | cons first codes ih =>
    rw [failedAll_cons, ih, command_answered]
    by_cases h : first = code
    · simp only [h, if_true, Bool.false_eq_true, if_false, add_one_add_ofNat, List.count_cons_self]
    · simp [h]

/-- The sizes that were noted last are listed. -/
theorem sizes_subset_listing (m : Metrics) :
    [("route_count", m.sizes.routes), ("conntrack_count", m.sizes.connections),
        ("client_count", m.sizes.clients)] ⊆ m.listing :=
  fun _ h => List.mem_append_left _ (List.mem_append_right _ h)

end Metrics

namespace Engine

variable {e : Engine} {event : Event} {history : List Event} {client : ClientId} {m : Wire.Message} {now : Nat}

/-- What may still come after a shutdown: messages, the search for idle connections, and
another shutdown. -/
inductive Event.Late : Event → Prop
  | message {event : Event} {client : ClientId} {m : Wire.Message} {now : Nat}
      (hm : event.message? = some (client, m, now)) : Late event
  | age (now : Nat) : Late (.age now)
  | shutdown : Late .shutdown

/-- The code that an event is counted under. -/
def Event.code? (event : Event) : Option UInt16 := event.message?.map fun sent => sent.2.1.code

/-- The answer of an engine that was shut down: a failure under the code of a message, no
events, nothing. -/
def Event.lateAnswer (event : Event) : Answer :=
  match event.code?, event with
  | some code, _ => .replied ((Wire.Reply.ofStatus .internalFailure).toMessage code) []
  | none, .age _ => .notified []
  | none, _ => .done

theorem dispatch_of_stopped (stopped : e.running = false) :
    e.dispatch client m now =
      ⟨{ e with metrics := e.metrics.answered m.code false }, .ofStatus .internalFailure, []⟩ := by
  rw [dispatch, handle_of_not_running stopped]
  rfl

/-- A late event is answered in one way, and counted if it is a message. -/
theorem step_of_stopped (stopped : e.running = false) (late : event.Late) :
    e.step event = ({ e with metrics := e.metrics.failedAll event.code?.toList }, event.lateAnswer) := by
  cases late with
  | message hm =>
    rw [step_of_message hm, dispatch_of_stopped stopped]
    simp [Event.lateAnswer, Event.code?, hm]
  | age now =>
    simp only [step, age_of_not_running stopped]
    rfl
  | shutdown =>
    have same : e.shutdown = e := by simp [Engine.shutdown, stopped]
    simp only [step, same]
    rfl

/-- Late events change nothing but the counts of the messages among them. -/
theorem run_of_stopped (stopped : e.running = false) (late : ∀ event ∈ history, event.Late) :
    e.run history = { e with metrics := e.metrics.failedAll (history.filterMap Event.code?) } ∧
      e.answers history = history.map Event.lateAnswer := by
  induction history generalizing e with
  | nil => exact ⟨rfl, rfl⟩
  | cons event history ih =>
    have first := step_of_stopped stopped (late event List.mem_cons_self)
    have rest := fun e' stopped' => @ih e' stopped' fun event he => late event (List.mem_cons_of_mem _ he)
    obtain ⟨ran, answered⟩ := rest (e.step event).1 (by rw [first]; exact stopped)
    refine ⟨?_, ?_⟩
    · rw [run_cons, ran, first]
      cases hc : event.code? <;> simp [hc]
    · rw [answers, answered, first]
      rfl

/-- **A shutdown freezes the engine.** When a running engine is shut down it forgets its
clients and frees the lock, and then, whatever messages come and however often it is aged
or shut down again, it keeps its routes, connections, interfaces, timeouts and cursors as
they were. Every message is answered under its code with the internal failure, and nobody is
told of anything. The sizes that are listed are those of the tables, and nothing is counted
but the messages, each as a request that failed. -/
theorem shutdown_freezes {e : Engine} (running : e.running = true) {history : List Event}
    (late : ∀ event ∈ history, event.Late) :
    let stopped := e.shutdown
    let after := stopped.run history
    after = { e with running := false, subscribers := .empty, session := .free, metrics := after.metrics } ∧
      stopped.answers history = history.map Event.lateAnswer ∧
      after.metrics = { e.metrics with sizes := after.sizes, commands := after.metrics.commands } ∧
      [("route_count", .ofNat e.routes.size),
          ("conntrack_count", .ofNat (e.connections.v4.size + e.connections.v6.size)), ("client_count", 0)] ⊆
        after.metrics.listing ∧
      ∀ code, after.metrics.command code =
        { requests := (e.metrics.command code).requests + .ofNat ((history.filterMap Event.code?).count code)
          failures := (e.metrics.command code).failures + .ofNat ((history.filterMap Event.code?).count code) } := by
  intro stopped after
  have shut : stopped = ({ e with running := false, subscribers := .empty, session := .free } : Engine).noteSizes := by
    simp only [stopped, shutdown, running, if_true]
  obtain ⟨ran, answered⟩ := @run_of_stopped stopped history (by rw [shut]; rfl) late
  have metrics : after.metrics = stopped.metrics.failedAll (history.filterMap Event.code?) := congrArg Engine.metrics ran
  have kept : after = { e with running := false, subscribers := .empty, session := .free, metrics := after.metrics } := by
    rw [metrics, show after = _ from ran, shut]
    rfl
  have noted : after.metrics = { e.metrics with sizes := stopped.sizes, commands := after.metrics.commands } := by
    rw [metrics, Metrics.failedAll_eq, shut]
    rfl
  have sizes : after.sizes = stopped.sizes := by
    rw [show after = _ from ran]
    rfl
  refine ⟨kept, answered, by rw [sizes]; exact noted, ?_, fun code => ?_⟩
  · have listed := after.metrics.sizes_subset_listing
    rw [noted, shut] at listed ⊢
    exact listed
  · rw [metrics, Metrics.command_failedAll, shut]
    rfl

namespace Small

/-- What comes after the shutdown: a message of the client, ageing, and once more. -/
def tooLate : List Event := [send .lockSession .register .empty, .age 7200001, .shutdown]

end Small

/-- A client that holds the lock, and two connections that are idle by then. -/
theorem shutdown_freezes_small :
    let e := Small.engine.run [.register Small.client Small.client.address, Small.send .lockSession .register .empty]
    let after := e.shutdown.run Small.tooLate
    e.running = true ∧ (∀ event ∈ Small.tooLate, event.Late) ∧ e.session.holder = some Small.client ∧
      after.session.holder = none ∧ after.subscribers = .empty ∧ after.connections = e.connections ∧
      e.connections.v4.size = 2 ∧
      e.shutdown.answers Small.tooLate =
        [.replied ⟨.command, Command.lockSession.code, [1, 2]⟩ [], .notified [], .done] ∧
      after.metrics.command Command.lockSession.code = ⟨2, 1⟩ := by
  intro e after
  have running : e.running = true := by decide +kernel
  have late : ∀ event ∈ Small.tooLate, event.Late := by
    simp only [Small.tooLate, List.forall_mem_cons]
    exact ⟨.message rfl, .age _, .shutdown, fun _ h => nomatch h⟩
  obtain ⟨kept, answered, -, -, counted⟩ := shutdown_freezes running late
  refine ⟨running, late, by decide +kernel, ?_, ?_, ?_, by decide +kernel, answered.trans rfl, ?_⟩
  · rw [show after = _ from kept]
    rfl
  · rw [show after = _ from kept]
  · rw [show after = _ from kept]
  · rw [counted]
    decide +kernel

end Engine

end ControlPlane
