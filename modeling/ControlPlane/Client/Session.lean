/-
The lock that a client holds while it changes interfaces. There is one for the
whole engine, and nothing takes it on its own.
-/
import ControlPlane.Client.Subscribers

namespace ControlPlane

/-- Who holds the lock. -/
structure Session where
  holder : Option ClientId
  deriving DecidableEq

namespace Session

/-- The lock that nobody holds. -/
def free : Session := ⟨none⟩

def isHeldBy (s : Session) (c : ClientId) : Bool := s.holder == some c

/-- A client takes the lock, which nobody may hold, itself included. -/
def lock (s : Session) (c : ClientId) : Except Status Session :=
  match s.holder with
  | none => .ok ⟨some c⟩
  | some _ => .error .alreadyLocked

/-- The holder gives the lock back. -/
def unlock (s : Session) (c : ClientId) : Except Status Session :=
  match s.holder with
  | none => .error .notLocked
  | some holder => if holder = c then .ok free else .error .wrongSession

/-- The lock is free if the client holds it, and stays as it is otherwise. -/
def releaseFor (s : Session) (c : ClientId) : Session := if s.isHeldBy c then free else s

@[simp] theorem isHeldBy_iff {s : Session} {c : ClientId} : s.isHeldBy c = true ↔ s.holder = some c := by
  simp [isHeldBy]

theorem lock_eq_ok_iff {s t : Session} {c : ClientId} :
    s.lock c = .ok t ↔ s.holder = none ∧ t.holder = some c := by
  obtain ⟨_ | d⟩ := s <;> obtain ⟨u⟩ := t <;> simp [lock, eq_comm]

theorem holder_releaseFor (s : Session) (c : ClientId) :
    (s.releaseFor c).holder = if s.holder = some c then none else s.holder := by
  simp only [releaseFor, isHeldBy_iff]
  split <;> rfl

end Session

end ControlPlane
