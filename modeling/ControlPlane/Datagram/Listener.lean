/-
A listener on a back-channel: which datagrams are events, and when it ends.

Datagrams that are no command message are passed over. The callback has a state,
so that what it answers may depend on what it was given before.
-/
import ControlPlane.Wire.Message

namespace ControlPlane

/-- What a callback answers to an event. -/
inductive Verdict where
  | proceed
  | stop
  deriving DecidableEq, Repr

/-- An event as a callback is given it. -/
structure Delivery where
  code : UInt16
  payload : Bytes
  deriving DecidableEq, Repr

/-- A callback whose state is a `σ`. -/
abbrev Callback (σ : Type) := σ → Delivery → σ × Verdict

structure Listener (σ : Type) where
  /-- The state of the callback. -/
  state : σ
  /-- What the callback was given, in its order. -/
  delivered : List Delivery
  /-- True once the callback said to stop. -/
  finished : Bool

/-- The event that a datagram holds. -/
def Delivery.ofDatagram? (datagram : Bytes) : Option Delivery :=
  match Wire.Message.decode (datagram.take Wire.maxDatagram) with
  | .ok m => if m.kind = .command then some ⟨m.code, m.payload⟩ else none
  | .error _ => none

namespace Listener

variable {σ : Type}

def ofState (state : σ) : Listener σ := { state, delivered := [], finished := false }

/-- Gives an event to the callback. -/
def deliver (callback : Callback σ) (l : Listener σ) (event : Delivery) : Listener σ :=
  let (state, verdict) := callback l.state event
  { state, delivered := l.delivered ++ [event], finished := verdict = .stop }

/-- Takes a datagram, unless the callback said to stop. -/
def receive (callback : Callback σ) (l : Listener σ) (datagram : Bytes) : Listener σ :=
  if l.finished then l
  else
    match Delivery.ofDatagram? datagram with
    | some event => l.deliver callback event
    | none => l

/-- The listener after the datagrams that arrive. -/
def run (callback : Callback σ) (l : Listener σ) (datagrams : List Bytes) : Listener σ :=
  datagrams.foldl (receive callback) l

@[simp] theorem run_nil (callback : Callback σ) (l : Listener σ) : l.run callback [] = l := rfl

@[simp] theorem run_cons (callback : Callback σ) (l : Listener σ) (d : Bytes) (ds : List Bytes) :
    l.run callback (d :: ds) = (l.receive callback d).run callback ds := rfl

/-- A listener that has ended takes nothing. -/
theorem run_of_finished (callback : Callback σ) {l : Listener σ} (h : l.finished = true) (ds : List Bytes) :
    l.run callback ds = l := by
  induction ds with
  | nil => rfl
  | cons d ds ih => rw [run_cons, receive, if_pos h, ih]

end Listener

end ControlPlane
