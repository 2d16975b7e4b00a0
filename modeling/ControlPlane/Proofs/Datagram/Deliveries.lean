/-
What a listener gives to its callback.

The datagrams that hold an event are given to the callback in the order of their arrival, up to
and including the first one that it answers with `stop`; others are passed over. The answers may
depend on the state of the callback, and so on all that it was given before. One run over the
datagrams says so of a listener in any state (`run_serves`).
-/
import ControlPlane.Datagram.Listener
import ControlPlane.Proofs.Datagram.Serving

namespace ControlPlane

/-- A datagram holds an event when it is a command message. -/
theorem Delivery.ofDatagram?_eq_some_iff {datagram : Bytes} {event : Delivery} :
    Delivery.ofDatagram? datagram = some event ↔
      ∃ m, Wire.Message.decode datagram = .ok m ∧ m.kind = .command ∧ event = ⟨m.code, m.payload⟩ := by
  rw [Delivery.ofDatagram?, Wire.Message.decode_take]
  cases Wire.Message.decode datagram with
  | error _ => simp
  | ok m => simp [eq_comm]

namespace Callback

variable {σ : Type}

/-- The state of a callback that was given some events. -/
def after (callback : Callback σ) (state : σ) (events : List Delivery) : σ :=
  events.foldl (fun state event => (callback state event).1) state

/-- What a callback answers to some events, one after the other. -/
def verdicts (callback : Callback σ) (state : σ) : List Delivery → List Verdict
  | [] => []
  | event :: events => (callback state event).2 :: verdicts callback (callback state event).1 events

end Callback

namespace Listener

variable {σ : Type} {callback : Callback σ} {l : Listener σ} {event : Delivery} {datagram : Bytes}

/-- What becomes of a listener when some events arrive. -/
inductive Serves (callback : Callback σ) (l : Listener σ) (events : List Delivery) (l' : Listener σ) : Prop
  /-- The callback goes on through all of them. -/
  | all (proceeds : ∀ v ∈ callback.verdicts l.state events, v = .proceed)
      (delivered : l'.delivered = l.delivered ++ events) (listens : l'.finished = false)
      (state : l'.state = callback.after l.state events)
  /-- The callback stops at one. -/
  | stopped {front back : List Delivery} {last : Delivery} (split : events = front ++ last :: back)
      (proceeds : ∀ v ∈ callback.verdicts l.state front, v = .proceed)
      (stops : (callback (callback.after l.state front) last).2 = .stop)
      (delivered : l'.delivered = l.delivered ++ (front ++ [last])) (ended : l'.finished = true)
      (state : l'.state = callback.after l.state (front ++ [last]))

theorem receive_of_none (callback : Callback σ) (l : Listener σ) (h : Delivery.ofDatagram? datagram = none) :
    l.receive callback datagram = l := by
  rw [receive, h, ite_self]

theorem receive_of_some (listens : l.finished = false) (h : Delivery.ofDatagram? datagram = some event) :
    l.receive callback datagram = l.deliver callback event := by
  rw [receive, if_neg (by simp [listens]), h]

/-- After an event at which the callback goes on, the others arrive. -/
theorem Serves.cons {events : List Delivery} {l' : Listener σ} (goesOn : (callback l.state event).2 = .proceed)
    (h : Serves callback (l.deliver callback event) events l') : Serves callback l (event :: events) l' := by
  have behind (more : List Delivery) :
      (l.deliver callback event).delivered ++ more = l.delivered ++ (event :: more) :=
    List.append_assoc ..
  cases h with
  | all proceeds delivered listens state =>
    exact .all (List.forall_mem_cons.2 ⟨goesOn, proceeds⟩) (delivered.trans (behind _)) listens state
  | @stopped front back last split proceeds stops delivered ended state =>
    have split' : event :: events = (event :: front) ++ last :: back := congrArg (List.cons event) split
    exact .stopped split' (List.forall_mem_cons.2 ⟨goesOn, proceeds⟩) stops (delivered.trans (behind _)) ended
      state

/-- What arrives at a listener that has not ended. -/
theorem run_serves (callback : Callback σ) (listens : l.finished = false) (datagrams : List Bytes) :
    Serves callback l (datagrams.filterMap Delivery.ofDatagram?) (l.run callback datagrams) := by
  -- over listeners in any state, since each event changes the state for those behind it
  induction datagrams generalizing l with
  | nil => exact .all (by simp [Callback.verdicts]) (List.append_nil _).symm listens rfl
  | cons datagram datagrams ih =>
    rw [run_cons]
    cases holds : Delivery.ofDatagram? datagram with
    | none =>
      rw [List.filterMap_cons_none holds, receive_of_none callback l holds]
      exact ih listens
    | some event =>
      rw [List.filterMap_cons_some holds, receive_of_some listens holds]
      cases verdict : (callback l.state event).2 with
      | proceed =>
        have goesOn : (l.deliver callback event).finished = false := by simp [deliver, verdict]
        exact (ih goesOn).cons verdict
      | stop =>
        have ended : (l.deliver callback event).finished = true := by simp [deliver, verdict]
        have split : event :: datagrams.filterMap Delivery.ofDatagram? =
            [] ++ event :: datagrams.filterMap Delivery.ofDatagram? := rfl
        rw [run_of_finished callback ended]
        exact .stopped split (by simp [Callback.verdicts]) verdict rfl ended rfl

/-- A datagram that holds no event might as well not have arrived. -/
theorem run_append_cons_of_none (callback : Callback σ) (l : Listener σ) (front back : List Bytes)
    (h : Delivery.ofDatagram? datagram = none) :
    l.run callback (front ++ datagram :: back) = l.run callback (front ++ back) := by
  simp only [run, List.foldl_append, List.foldl_cons, receive_of_none callback _ h]

/-! ## Main result -/

/-- **A listener delivers the events.** Whatever datagrams arrive: the events are the command
messages among them, in the order of arrival. Either the callback goes on through all of them, is
given all, and the listener has not ended; or it is given those up to the first one that it
answers with `stop`, and the listener has ended and gives it nothing more. The state of the
callback is that after what it was given, so nothing else was. Other datagrams make no
difference. -/
theorem events_delivered (callback : Callback σ) (state : σ) (datagrams : List Bytes) :
    let events := datagrams.filterMap Delivery.ofDatagram?
    let l := (ofState state).run callback datagrams
    (∀ datagram event, Delivery.ofDatagram? datagram = some event ↔
      ∃ m, Wire.Message.decode datagram = .ok m ∧ m.kind = .command ∧ event = ⟨m.code, m.payload⟩) ∧
      ((∀ v ∈ callback.verdicts state events, v = .proceed) ∧ l.delivered = events ∧ l.finished = false ∨
        ∃ front last back, events = front ++ last :: back ∧
          (∀ v ∈ callback.verdicts state front, v = .proceed) ∧
          (callback (callback.after state front) last).2 = .stop ∧
          l.delivered = front ++ [last] ∧ l.finished = true ∧ ∀ more, l.run callback more = l) ∧
      l.state = callback.after state l.delivered ∧
      ∀ front datagram back, datagrams = front ++ datagram :: back → Delivery.ofDatagram? datagram = none →
        l = (ofState state).run callback (front ++ back) := by
  intro events l
  have listens : (ofState state).finished = false := rfl
  have served : Serves callback (ofState state) events l := run_serves callback listens datagrams
  refine ⟨fun _ _ => Delivery.ofDatagram?_eq_some_iff, ?_, ?_, ?_⟩
  · cases served with
    | all proceeds delivered listens _ => exact .inl ⟨proceeds, delivered, listens⟩
    | @stopped front back last split proceeds stops delivered ended _ =>
      exact .inr ⟨front, last, back, split, proceeds, stops, delivered, ended, run_of_finished callback ended⟩
  · cases served with
    | all _ delivered _ after | stopped _ _ _ delivered _ after => rw [after, delivered]; rfl
  · rintro front datagram back rfl none
    exact run_append_cons_of_none callback _ front back none

namespace Small

/-- An event without a payload. -/
def push (code : UInt16) : Bytes := Wire.Message.encode { kind := .command, code, payload := [] }

/-- A callback that stops at the second event that it is given. -/
def second : Callback Nat := fun seen _ => (seen + 1, if seen = 1 then .stop else .proceed)

end Small

/-- Octets that are no message and a message of another kind are passed over, and nothing is given to
the callback after its second event. -/
example :
    let leave := Wire.Message.encode { kind := .unregister, code := 1, payload := [] }
    (ofState 0).run Small.second [Small.push 1, [9], leave, Small.push 2, Small.push 3] =
      ⟨2, [⟨1, []⟩, ⟨2, []⟩], true⟩ := by
  rfl

end Listener

end ControlPlane
