/-
What is given back when a part of the host gives back the lock.

A part of the host takes the lock for a client and later gives it back for that client. By
then its hold may have ended, and the lock may have been taken again. An event moves the
lock in one of three ways (`step_moves`), so the history tells whose the lock is: it is held
by the client that took it last, as long as nothing ended that hold (`holder_run_iff`).
Giving back looks at the client alone. It ends the hold that the client has, be it a later
one than was taken (`later_hold_given_back`), and leaves every other client's
(`giving_back_exact`).
-/
import Mathlib.Data.List.Induction
import ControlPlane.Proofs.Engine.Lock

namespace ControlPlane.Engine

open Wire (Message)

variable {e : Engine} {event : Event} {history : List Event} {a b client : ClientId} {m : Message} {now : Nat}

/-- A hold of a client lasts through a history. -/
def Lasts (e : Engine) (a : ClientId) : List Event → Prop
  | [] => True
  | event :: history => ¬ e.Ends a event ∧ (e.step event).1.Lasts a history

/-! ## Holds along a history -/

theorem lasts_concat : e.Lasts a (history ++ [event]) ↔ e.Lasts a history ∧ ¬ (e.run history).Ends a event := by
  induction history generalizing e with
  | nil => simp [Lasts]
  | cons first history ih => simp [Lasts, ih, and_assoc]

/-- A client holds the lock after a history when it held it at the start and that hold
lasts, or when it took it at some event and that hold lasts. -/
theorem holder_run_iff :
    (e.run history).session.holder = some a ↔
      e.session.holder = some a ∧ e.Lasts a history ∨
        ∃ before taking held, history = before ++ taking :: held ∧ (e.run before).Takes taking a ∧
          ((e.run before).step taking).1.Lasts a held := by
  -- From the end: the last event takes the lock, or whoever held it before still does.
  induction history using List.reverseRecOn with
  | nil => simp [Lasts]
  | append_singleton history event ih =>
    rw [run_append, run_cons, run_nil, holder_step_iff, ih, lasts_concat]
    constructor
    · rintro (takes | ⟨⟨held, lasts⟩ | ⟨before, taking, held, rfl, takes, lasts⟩, last⟩)
      · exact .inr ⟨history, event, [], rfl, takes, trivial⟩
      · exact .inl ⟨held, lasts, last⟩
      · refine .inr ⟨before, taking, held ++ [event], by simp, takes, lasts_concat.2 ⟨lasts, ?_⟩⟩
        rwa [run_append, run_cons] at last
    · rintro (⟨held, lasts, last⟩ | ⟨before, taking, held, split, takes, lasts⟩)
      · exact .inr ⟨.inl ⟨held, lasts⟩, last⟩
      · induction held using List.reverseRecOn with
        | nil =>
          obtain ⟨rfl, same⟩ := List.append_inj' split rfl
          cases same
          exact .inl takes
        | append_singleton held last _ =>
          rw [← List.cons_append, ← List.append_assoc] at split
          obtain ⟨rfl, same⟩ := List.append_inj' split rfl
          cases same
          obtain ⟨lasts, ends⟩ := lasts_concat.1 lasts
          refine .inr ⟨.inr ⟨before, taking, held, rfl, takes, lasts⟩, ?_⟩
          rwa [run_append, run_cons]

/-! ## Main result -/

theorem free_of_fresh {config : Config} {start : Engine} (fresh : ofConfig config = .ok start) :
    start.session.holder = none := by
  obtain ⟨_, -, rfl⟩ := ofConfig_eq_ok fresh
  rfl

/-- **Giving back the lock ends the client's hold, and no other's.** After any history of a
new engine a client holds the lock just when it took it, by a message or through a part of
the host, and its hold lasts. When a part of the host gives the lock back for a client, only
the lock changes, and it changes just when that client holds it: then it is free. So a part
that took the lock for a client gives back what it took as long as that hold lasts; once it
has ended, giving back changes the holder just when the same client has taken the lock again
and holds it still, and a hold of another client stays. -/
theorem giving_back_exact {config : Config} {start : Engine} (fresh : ofConfig config = .ok start)
    (history : List Event) (a : ClientId) :
    let e := start.run history
    let after := (e.step (.release a)).1
    after = { e with session := after.session } ∧
      after.session.holder = (if e.session.holder = some a then none else e.session.holder) ∧
      (e.session.holder = some a ↔
        ∃ before taking held, history = before ++ taking :: held ∧ (start.run before).Takes taking a ∧
          ((start.run before).step taking).1.Lasts a held) ∧
      ∀ before held, history = before ++ .acquire a :: held →
        ((start.run before).step (.acquire a)).2 = .status .ok →
          let taken := ((start.run before).step (.acquire a)).1
          (taken.Lasts a held → e.session.holder = some a ∧ after.session.holder = none) ∧
            (¬ taken.Lasts a held →
              (after.session.holder ≠ e.session.holder ↔
                ∃ between taking held', held = between ++ taking :: held' ∧ (taken.run between).Takes taking a ∧
                  ((taken.run between).step taking).1.Lasts a held')) ∧
            ∀ b, b ≠ a → e.session.holder = some b → after = e := by
  intro e after
  have holder : after.session.holder = if e.session.holder = some a then none else e.session.holder :=
    Session.holder_releaseFor ..
  refine ⟨rfl, holder, ?_, fun before held split ok => ?_⟩
  · refine holder_run_iff.trans ?_
    simp only [free_of_fresh fresh, reduceCtorEq, false_and, false_or]
  · intro taken
    have first : taken.session.holder = some a := Takes.holder (.inr ⟨rfl, ok⟩)
    have rest : e = taken.run held := by simp only [e, split, run_append, run_cons, taken]
    have changes : after.session.holder ≠ e.session.holder ↔ e.session.holder = some a := by
      rw [holder]
      by_cases mine : e.session.holder = some a <;> simp [mine]
    refine ⟨fun lasts => ?_, fun ended => ?_, fun b other held => ?_⟩
    · have mine : e.session.holder = some a := by
        rw [rest]
        exact holder_run_iff.2 (.inl ⟨first, lasts⟩)
      exact ⟨mine, by simp [holder, mine]⟩
    · rw [changes, rest, holder_run_iff]
      simp only [ended, and_false, false_or]
    · have another : e.session.isHeldBy a = false := by simp [Session.isHeldBy, held, other]
      show ({ e with session := e.session.releaseFor a } : Engine) = e
      rw [Session.releaseFor, another]
      rfl

namespace Small

/-- The client gives up what was taken for it. -/
def unlock : Event := send .unlockSession .register .empty

/-- A client asks for the lock. -/
def lock (client : ClientId) : Event := .message client (message .lockSession .register .empty) 0

end Small

/-- A part of the host takes the lock for the client, which gives it up and takes it again.
Now the part gives back what it took, and the client's own hold ends. -/
theorem later_hold_given_back :
    let taken := (Small.start.step (.acquire Small.client)).1
    let held := [Small.unlock, Small.lock Small.client]
    let e := Small.start.run (.acquire Small.client :: held)
    ofConfig Small.config = .ok Small.start ∧ (Small.start.step (.acquire Small.client)).2 = .status .ok ∧
      taken.Ends Small.client Small.unlock ∧ ¬ taken.Lasts Small.client held ∧
      (taken.run [Small.unlock]).Takes (Small.lock Small.client) Small.client ∧
      e.session.holder = some Small.client ∧ (e.step (.release Small.client)).1.session.holder = none := by
  intro taken held e
  have unlocks : (Small.message .unlockSession .register .empty).Carries .unlockSession none .empty :=
    ⟨rfl, rfl, by decide +kernel⟩
  have ends : taken.Ends Small.client Small.unlock := .released (by decide +kernel) (.unlock rfl unlocks)
  have takes : (taken.run [Small.unlock]).Takes (Small.lock Small.client) Small.client :=
    .inl ⟨_, _, none, .empty, rfl, ⟨rfl, rfl, by decide +kernel⟩, by decide +kernel⟩
  exact ⟨rfl, rfl, ends, fun lasts => lasts.1 ends, takes, takes.holder, by decide +kernel⟩

/-- What was taken for the client has ended, and another client has the lock: it keeps it
until it is given back for that client. -/
theorem giving_back_exact_small :
    let held := [Small.unlock, Small.lock Small.other]
    let e := Small.start.run (.acquire Small.client :: held)
    ofConfig Small.config = .ok Small.start ∧ (Small.start.step (.acquire Small.client)).2 = .status .ok ∧
      e.session.holder = some Small.other ∧ (e.step (.release Small.client)).1 = e ∧
      (e.step (.release Small.other)).1.session.holder = none := by
  intro held e
  have taken : (Small.start.step (.acquire Small.client)).2 = .status .ok := rfl
  have holder : e.session.holder = some Small.other := by decide +kernel
  have exact := @giving_back_exact Small.config Small.start rfl (.acquire Small.client :: held)
  obtain ⟨-, -, -, given⟩ := exact Small.client
  obtain ⟨-, -, others⟩ := given [] held rfl taken
  obtain ⟨-, freed, -⟩ := exact Small.other
  exact ⟨rfl, taken, holder, others Small.other (by decide) holder, by rw [freed, if_pos holder]⟩

end ControlPlane.Engine
