/-
The lock keeps interfaces to its holder.

In one event somebody takes the lock, or the hold that there is ends, or the lock stays as
it was (`step_moves`). So a client that was given it keeps it until it unlocks, leaves, or
the engine shuts down (`Holds.run`), whatever else happens in between. All that time nobody
else gets the lock, and nobody else changes an interface. Of an interface only the two flags ever
change (`frame_run`), and only through an update of the holder (`step_interfaces`).

From the main result the calls by which a part of the host takes the lock itself are left
out: they answer to no message, and a part that gives the lock back may give back what its
client took.
-/
import ControlPlane.Proofs.Engine.Event
import ControlPlane.Proofs.Engine.Integrity

namespace ControlPlane

/-! ## What never changes of an interface -/

theorem Sequenced.map_modify {α β : Type} {g : α → β} {f : α → α} (h : ∀ a, g (f a) = g a)
    (s : Sequenced α) (seq : Nat) : (s.modify seq f).map g = s.map g := by
  refine ext_entries ?_ rfl
  show ((s.entries.map fun e => if rank e.1 = rank seq then (e.1, f e.2) else e).map fun e => (e.1, g e.2)) =
    s.entries.map fun e => (e.1, g e.2)
  rw [List.map_map]
  refine List.map_congr_left fun e _ => ?_
  simp only [Function.comp]
  split
  · rw [h]
  · rfl

namespace InterfaceTable

/-- The interfaces by number, but for their two flags. -/
def frame (t : InterfaceTable) : Sequenced Interface :=
  t.interfaces.map fun i => { i with enabled := false, promiscuous := false }

variable {t t' : InterfaceTable} {i : Interface}

theorem update_eq_ok (h : t.update i = .ok t') :
    ∃ seq j, t.interfaces.get? seq = some j ∧ j.id = i.id ∧
      t'.interfaces =
        t.interfaces.modify seq fun j => { j with enabled := i.enabled, promiscuous := i.promiscuous } := by
  unfold update at h
  split at h
  · cases h
  · next seq j hf =>
    cases h
    have hid := List.find?_some hf
    exact ⟨seq, j, Sequenced.mem_entries_iff.1 (List.mem_of_find?_eq_some hf), by simpa using hid, rfl⟩

theorem frame_update (h : t.update i = .ok t') : t'.frame = t.frame := by
  obtain ⟨seq, j, -, -, changed⟩ := update_eq_ok h
  rw [frame, changed]
  refine Sequenced.map_modify ?_ t.interfaces seq
  intro j
  rfl

end InterfaceTable

namespace Engine

open Wire (Message)

variable {e : Engine} {a b client : ClientId} {event : Event} {m : Message} {now : Nat}

/-- A part of the host takes the lock or gives it back. -/
def Event.internal : Event → Bool
  | .acquire _ | .release _ => true
  | _ => false

/-- A client gives the lock back: it says so, or it leaves, or all do. -/
inductive Event.Releases (a : ClientId) : Event → Prop
  | unlock {event : Event} {m : Message} {now : Nat} {action : Option Action} {r : Wire.Record}
      (hm : event.message? = some (a, m, now)) (hc : m.Carries .unlockSession action r) : Releases a event
  | leave {event : Event} {m : Message} {now : Nat} (hm : event.message? = some (a, m, now))
      (hk : m.kind = .unregister) : Releases a event
  | forgotten : Releases a (.unregister a)
  | shutdown : Releases a .shutdown

/-- A client is given the lock. -/
def Locks (e : Engine) (event : Event) (a : ClientId) : Prop :=
  ∃ m now action r, event.message? = some (a, m, now) ∧ m.Carries .lockSession action r ∧
    (e.dispatch a m now).reply.status = .ok

/-- A client holds the lock of an engine that runs. -/
structure Holds (e : Engine) (a : ClientId) : Prop where
  running : e.running = true
  holder : e.session.holder = some a

/-- A client is given the lock, in answer to its message or to a part of the host. -/
def Takes (e : Engine) (event : Event) (a : ClientId) : Prop :=
  e.Locks event a ∨ event = .acquire a ∧ (e.step event).2 = .status .ok

/-- A hold of a client ends: the client releases it while the engine runs, or the host
forgets the client, or a part of the host gives back the lock for it. -/
inductive Ends (e : Engine) (a : ClientId) : Event → Prop
  | released {event : Event} (running : e.running = true) (hr : event.Releases a) : Ends e a event
  | forgotten : Ends e a (.unregister a)
  | givenBack : Ends e a (.release a)

/-! ## What an event does to the lock -/

theorem perform_unlock {action : Option Action} {r : Wire.Record} :
    e.perform client .unlockSession action r now =
      e.settled ((e.session.unlock client).map fun session => { e with session }) := by
  cases action <;> cases r <;> rfl

theorem perform_lock {action : Option Action} {r : Wire.Record} :
    e.perform client .lockSession action r now = e.settled (e.acquire client) := by
  cases action <;> cases r <;> rfl

theorem Holds.lock_eq (h : e.Holds a) (client : ClientId) : e.session.lock client = .error .alreadyLocked := by
  simp [Session.lock, h.holder]

theorem Holds.unlock_eq (h : e.Holds a) (ne : client ≠ a) : e.session.unlock client = .error .wrongSession := by
  simp [Session.unlock, h.holder, Ne.symm ne]

theorem Locks.holds (h : e.Locks event a) : (e.step event).1.Holds a := by
  obtain ⟨m, now, action, r, hm, hc, ok⟩ := h
  have running := running_of_ok ok
  rw [step_of_message hm]
  rw [dispatch_of_carries running hc, perform_lock] at ok ⊢
  cases hl : e.session.lock a with
  | error status =>
    have : e.session.lock a ≠ .error .ok := by
      unfold Session.lock
      split <;> simp
    rw [acquire, hl] at ok
    exact absurd (hl.trans (congrArg Except.error ok)) this
  | ok session =>
    obtain ⟨-, holder⟩ := Session.lock_eq_ok_iff.1 hl
    simp only [acquire, hl, Except.map, settled]
    exact ⟨running, holder⟩

/-- The holder after an event: as before, or a client that took the lock, or nobody after
the holder's hold ended. -/
inductive Moves (e : Engine) (event : Event) : Option ClientId → Prop
  | kept (lasts : ∀ a, e.session.holder = some a → ¬ e.Ends a event) : Moves e event e.session.holder
  | taken {a : ClientId} (free : e.session.holder = none) (ht : e.Takes event a) : Moves e event (some a)
  | ended {a : ClientId} (held : e.session.holder = some a) (he : e.Ends a event) : Moves e event none

theorem ends_iff_of_message (hm : event.message? = some (client, m, now)) :
    e.Ends a event ↔
      e.running = true ∧ client = a ∧ ((∃ action r, m.Carries .unlockSession action r) ∨ m.kind = .unregister) := by
  constructor
  · intro h
    cases h with
    | released running hr =>
      cases hr with
      | unlock hm' hc =>
        cases hm.symm.trans hm'
        exact ⟨running, rfl, .inl ⟨_, _, hc⟩⟩
      | leave hm' hk =>
        cases hm.symm.trans hm'
        exact ⟨running, rfl, .inr hk⟩
      | forgotten | shutdown => cases hm
    | forgotten | givenBack => cases hm
  · rintro ⟨running, rfl, ⟨_, _, hc⟩ | hk⟩
    · exact .released running (.unlock hm hc)
    · exact .released running (.leave hm hk)

theorem ends_iff_of_host (hm : event.message? = none) :
    e.Ends a event ↔ event = .unregister a ∨ event = .release a ∨ event = .shutdown ∧ e.running = true := by
  constructor
  · intro h
    cases h with
    | released running hr =>
      cases hr with
      | unlock hm' | leave hm' => cases hm.symm.trans hm'
      | forgotten => exact .inl rfl
      | shutdown => exact .inr (.inr ⟨rfl, running⟩)
    | forgotten => exact .inl rfl
    | givenBack => exact .inr (.inl rfl)
  · rintro (rfl | rfl | ⟨rfl, running⟩)
    · exact .forgotten
    · exact .givenBack
    · exact .released running .shutdown

theorem acquire_of_free (free : e.session.holder = none) (a : ClientId) :
    e.acquire a = .ok { e with session := ⟨some a⟩ } := by
  simp [acquire, Session.lock, free, Except.map]

theorem acquire_of_held (held : e.session.holder = some b) (a : ClientId) :
    e.acquire a = .error .alreadyLocked := by
  simp [acquire, Session.lock, held, Except.map]

/-- The engine moves the lock for a client that leaves. -/
theorem moves_releaseFor (leaves : e.session.holder = some a → e.Ends a event)
    (others : ∀ b, b ≠ a → ¬ e.Ends b event) : e.Moves event (e.session.releaseFor a).holder := by
  rw [Session.holder_releaseFor]
  split
  · next held => exact .ended held (leaves held)
  · next other => exact .kept fun b held => others b fun same => other (same ▸ held)

theorem perform_moves {command : Command} {action : Option Action} {r : Wire.Record} (running : e.running = true)
    (hm : event.message? = some (client, m, now)) (hc : m.Carries command action r) :
    e.Moves event (e.perform client command action r now).engine.session.holder := by
  have ends (a : ClientId) : e.Ends a event ↔ client = a ∧ command = .unlockSession := by
    rw [ends_iff_of_message hm]
    constructor
    · rintro ⟨-, same, ⟨_, _, hc'⟩ | hk⟩
      · exact ⟨same, (hc.unique hc').1⟩
      · exact absurd (hc.1.symm.trans hk) (by decide)
    · rintro ⟨same, rfl⟩
      exact ⟨running, same, .inl ⟨_, _, hc⟩⟩
  by_cases hl : command = .lockSession
  · subst hl
    rw [perform_lock]
    cases holder : e.session.holder with
    | none =>
      have ok : (e.dispatch client m now).reply.status = .ok := by
        rw [dispatch_of_carries running hc, perform_lock, acquire_of_free holder]
        rfl
      rw [acquire_of_free holder]
      exact .taken holder (.inl ⟨m, now, action, r, hm, hc, ok⟩)
    | some b =>
      rw [acquire_of_held holder]
      exact .kept fun a _ he => by simp [ends] at he
  · by_cases hu : command = .unlockSession
    · subst hu
      rw [perform_unlock]
      cases holder : e.session.holder with
      | none =>
        simp only [Session.unlock, holder, Except.map]
        exact .kept fun a held => by simp [holder] at held
      | some b =>
        by_cases same : b = client
        · simp only [Session.unlock, holder, same, if_true, Except.map]
          exact .ended holder ((ends b).2 ⟨same.symm, rfl⟩)
        · simp only [Session.unlock, holder, same, if_false, Except.map]
          refine .kept fun a held he => same ?_
          rw [holder] at held
          rw [Option.some.inj held, ((ends a).1 he).1]
    · rw [(perform_writes e client command action r now).session hl hu]
      exact .kept fun a _ he => hu ((ends a).1 he).2

/-- An event moves the lock in one of three ways. -/
theorem step_moves (e : Engine) (event : Event) : e.Moves event (e.step event).1.session.holder := by
  induction event using Event.byMessage with
  | message event client m now hm =>
    rw [step_of_message hm]
    by_cases carries : e.running = true ∧ ∃ command action r, m.Carries command action r
    · obtain ⟨running, command, action, r, hc⟩ := carries
      rw [dispatch_of_carries running hc]
      exact perform_moves running hm hc
    · have lasts (kind : e.running = true → m.kind ≠ .unregister) (a : ClientId) : ¬ e.Ends a event := by
        rw [ends_iff_of_message hm]
        rintro ⟨running, -, ⟨action, r, hc⟩ | hk⟩
        · exact carries ⟨running, _, action, r, hc⟩
        · exact kind running hk
      have answered := dispatch_answered e client m now
      generalize e.dispatch client m now = o at answered
      cases answered with
      | performed metrics running hc => exact absurd ⟨running, _, _, _, hc⟩ carries
      | joined _ _ _ hk => exact .kept fun a _ => lasts (fun _ => by simp [hk]) a
      | left _ running hk =>
        refine moves_releaseFor (fun _ => (ends_iff_of_message hm).2 ⟨running, rfl, .inr hk⟩) fun b other he => ?_
        exact other ((ends_iff_of_message hm).1 he).2.1.symm
      | refused _ _ _ hk => exact .kept fun a _ => lasts hk a
  | malformed client octets now error hd =>
    have none : (Event.datagram client octets now).message? = none := by
      simp [Event.message?, hd, Except.toOption]
    rw [step_of_malformed hd]
    exact .kept fun a _ he => by simpa using (ends_iff_of_host none).1 he
  | age now =>
    obtain ⟨_, _, aged⟩ := age_writes e now
    have same : (e.age now).1.session = e.session := by rw [aged]
    simp only [step, same]
    exact .kept fun a _ he => by simpa using (ends_iff_of_host rfl).1 he
  | packet f key octets now =>
    obtain ⟨_, _, counted⟩ := account_writes e f key octets now
    have same : (e.account f key octets now).1.session = e.session := by rw [counted]
    simp only [step, same]
    exact .kept fun a _ he => by simpa using (ends_iff_of_host rfl).1 he
  | unregister client =>
    refine moves_releaseFor (fun _ => .forgotten) fun b other he => other ?_
    have same : client = b := by simpa using (ends_iff_of_host rfl).1 he
    exact same.symm
  | release client =>
    refine moves_releaseFor (fun _ => .givenBack) fun b other he => other ?_
    have same : client = b := by simpa using (ends_iff_of_host rfl).1 he
    exact same.symm
  | acquire client =>
    cases holder : e.session.holder with
    | none =>
      have taken : e.step (.acquire client) = ({ e with session := ⟨some client⟩ }, .status .ok) := by
        simp only [step, acquire_of_free holder]
      rw [taken]
      exact .taken holder (.inr ⟨rfl, by rw [taken]⟩)
    | some b =>
      simp only [step, acquire_of_held holder]
      exact .kept fun a _ he => by simpa using (ends_iff_of_host rfl).1 he
  | health | register | unreachable =>
    exact .kept fun a _ he => by simpa using (ends_iff_of_host rfl).1 he
  | shutdown =>
    obtain running | stopped := Bool.eq_false_or_eq_true e.running
    · have freed : (e.step .shutdown).1.session.holder = none := by
        simp [step, shutdown, running, noteSizes, Session.free]
      rw [freed]
      cases holder : e.session.holder with
      | none => exact holder ▸ .kept fun a held => by simp [holder] at held
      | some a => exact .ended holder (.released running .shutdown)
    · simp only [step, shutdown, stopped, Bool.false_eq_true, if_false]
      exact .kept fun a _ he => by simpa [stopped] using (ends_iff_of_host rfl).1 he

theorem Takes.free (h : e.Takes event a) : e.session.holder = none := by
  cases holder : e.session.holder with
  | none => rfl
  | some b =>
    obtain ⟨m, now, action, r, -, hc, ok⟩ | ⟨rfl, ok⟩ := h
    · rw [dispatch_of_carries (running_of_ok ok) hc, perform_lock, acquire_of_held holder] at ok
      cases ok
    · simp [step, acquire_of_held holder] at ok

theorem Takes.holder (h : e.Takes event a) : (e.step event).1.session.holder = some a := by
  have free := h.free
  obtain locks | ⟨rfl, -⟩ := h
  · exact locks.holds.holder
  · simp [step, acquire_of_free free]

/-- A client holds the lock after an event when it takes it then, or held it before and
its hold does not end. -/
theorem holder_step_iff :
    (e.step event).1.session.holder = some a ↔
      e.Takes event a ∨ e.session.holder = some a ∧ ¬ e.Ends a event := by
  have moves := e.step_moves event
  generalize after : (e.step event).1.session.holder = x at moves ⊢
  cases moves with
  | kept lasts =>
    constructor
    · exact fun held => .inr ⟨held, lasts a held⟩
    · rintro (takes | ⟨held, -⟩)
      · exact after.symm.trans takes.holder
      · exact held
  | @taken b free ht =>
    constructor
    · intro same
      cases same
      exact .inl ht
    · rintro (takes | ⟨held, -⟩)
      · exact after.symm.trans takes.holder
      · exact absurd (free.symm.trans held) (by simp)
  | @ended b held he =>
    constructor
    · exact fun none => by cases none
    · rintro (takes | ⟨held', lasts⟩)
      · exact after.symm.trans takes.holder
      · cases held.symm.trans held'
        exact absurd he lasts

/-! ## The lock over time -/

/-- Nothing but a release takes the lock from its holder. -/
theorem Holds.step (h : e.Holds a) (outside : event.internal = false) (kept : ¬ event.Releases a) :
    (e.step event).1.Holds a := by
  have goesOn : event ≠ .shutdown := by
    rintro rfl
    exact kept .shutdown
  refine ⟨(running_step goesOn).trans h.running, holder_step_iff.2 (.inr ⟨h.holder, fun ends => ?_⟩)⟩
  cases ends with
  | released _ hr => exact kept hr
  | forgotten => exact kept .forgotten
  | givenBack => cases outside

theorem Holds.run {history : List Event} (h : e.Holds a) (outside : ∀ event ∈ history, event.internal = false)
    (kept : ∀ event ∈ history, ¬ event.Releases a) : (e.run history).Holds a := by
  induction history generalizing e with
  | nil => exact h
  | cons event history ih =>
    have next := h.step (outside event List.mem_cons_self) (kept event List.mem_cons_self)
    exact ih next (fun event he => outside event (List.mem_cons_of_mem _ he))
      fun event he => kept event (List.mem_cons_of_mem _ he)

/-- A release leaves the lock to others. -/
theorem Holds.released (h : e.Holds a) (hr : event.Releases a) : (e.step event).1.session.holder ≠ some a := by
  intro still
  obtain takes | ⟨-, lasts⟩ := holder_step_iff.1 still
  · exact absurd (takes.free.symm.trans h.holder) (by simp)
  · exact lasts (.released h.running hr)

/-! ## Writing an interface -/

theorem handleInterface_update (held : e.session.holder = some client) (i : Interface) :
    e.handleInterface client .update i =
      e.settled ((e.interfaces.update i).map fun interfaces => { e with interfaces }) := by
  simp [handleInterface, held]

theorem handleInterface_update_of_ne (other : e.session.holder ≠ some client) (i : Interface) :
    e.handleInterface client .update i = e.refused .wrongSession := by
  simp [handleInterface, other]

/-- No action on interfaces but an update changes one. -/
theorem interfaces_handleInterface {action : Action} (h : action ≠ .update) (i : Interface) :
    (e.handleInterface client action i).engine.interfaces = e.interfaces := by
  cases action with
  | update => exact absurd rfl h
  | query | queryCont =>
    rw [handleInterface_list e client i rfl]
    obtain ⟨c, hc⟩ := list_engine e .interfaces _
    rw [hc]
    rfl
  | register | deregister | keepAlive | removed => rfl

theorem interfaces_perform {command : Command} {action : Option Action} {r : Wire.Record}
    (h : ∀ i, ¬ (command = .interface ∧ action = some .update ∧ r = .interface i)) :
    (e.perform client command action r now).engine.interfaces = e.interfaces := by
  by_cases hc : command = .interface
  · subst hc
    cases action with
    | none => cases r <;> rfl
    | some action =>
      cases r with
      | interface i => exact interfaces_handleInterface (fun hu => h i ⟨rfl, by rw [hu], rfl⟩) i
      | _ => rfl
  · exact (perform_writes e client command action r now).interfaces hc

/-- The event is an update of an interface that is answered to the holder of the
lock. -/
def Updates (e : Engine) (event : Event) (i : Interface) : Prop :=
  ∃ client m now, event.message? = some (client, m, now) ∧
    m.Carries .interface (some .update) (.interface i) ∧
    (e.dispatch client m now).reply.status = .ok ∧ e.session.holder = some client

/-- A message that carries an update changes the interfaces for the holder only. -/
theorem dispatch_update {i : Interface} (running : e.running = true) (hm : event.message? = some (client, m, now))
    (hc : m.Carries .interface (some .update) (.interface i)) :
    (e.dispatch client m now).engine.interfaces = e.interfaces ∨
      e.Updates event i ∧ e.interfaces.update i = .ok (e.dispatch client m now).engine.interfaces := by
  have outcome : e.dispatch client m now = _ := dispatch_of_carries running hc
  by_cases held : e.session.holder = some client
  · have handled : e.perform client .interface (some .update) (.interface i) now = _ :=
      handleInterface_update held i
    cases hu : e.interfaces.update i with
    | error status =>
      left
      rw [outcome, handled, hu]
      rfl
    | ok t =>
      rw [hu] at handled
      right
      refine ⟨⟨client, m, now, hm, hc, ?_, held⟩, ?_⟩
      · rw [outcome, handled]
        rfl
      · rw [outcome, handled]
        rfl
  · have handled : e.perform client .interface (some .update) (.interface i) now = _ :=
      handleInterface_update_of_ne held i
    left
    rw [outcome, handled]
    rfl

/-- Interfaces change in no event but an update of the holder. -/
theorem step_interfaces (e : Engine) (event : Event) :
    (e.step event).1.interfaces = e.interfaces ∨
      ∃ i, e.Updates event i ∧ e.interfaces.update i = .ok (e.step event).1.interfaces := by
  induction event using Event.byMessage with
  | message event client m now hm =>
    rw [step_of_message hm]
    by_cases hu : e.running = true ∧ ∃ i, m.Carries .interface (some .update) (.interface i)
    · obtain ⟨running, i, hc⟩ := hu
      exact (dispatch_update running hm hc).imp id fun h => ⟨i, h⟩
    · left
      have answered := dispatch_answered e client m now
      generalize e.dispatch client m now = o at answered
      cases answered with
      | performed metrics running hc =>
        refine interfaces_perform fun i h => hu ⟨running, i, ?_⟩
        obtain ⟨rfl, rfl, rfl⟩ := h
        exact hc
      | joined | left | refused => rfl
  | malformed client octets now error hd =>
    rw [step_of_malformed hd]
    exact .inl rfl
  | age now =>
    obtain ⟨_, _, aged⟩ := age_writes e now
    left
    show (e.age now).1.interfaces = e.interfaces
    rw [aged]
  | packet f key octets now =>
    obtain ⟨_, _, counted⟩ := account_writes e f key octets now
    left
    show (e.account f key octets now).1.interfaces = e.interfaces
    rw [counted]
  | acquire client =>
    obtain ⟨_, acquired⟩ := acquire_writes e client
    left
    rw [acquired]
  | shutdown =>
    obtain ⟨_, _, _, _, stopped⟩ := shutdown_writes e
    left
    show e.shutdown.interfaces = e.interfaces
    rw [stopped]
  | health | register | unregister | unreachable | release => exact .inl rfl

theorem frame_step (e : Engine) (event : Event) :
    (e.step event).1.interfaces.frame = e.interfaces.frame := by
  obtain same | ⟨i, -, updated⟩ := step_interfaces e event
  · rw [same]
  · exact InterfaceTable.frame_update updated

theorem frame_run (e : Engine) (history : List Event) :
    (e.run history).interfaces.frame = e.interfaces.frame := by
  induction history generalizing e with
  | nil => rfl
  | cons event history ih => exact (ih _).trans (frame_step e event)

/-- Flags that differ after an event were set as an update of the holder says. -/
theorem flags_step {seq : Nat} {i j : Interface} (before : e.interfaces.interfaces.get? seq = some i)
    (after : (e.step event).1.interfaces.interfaces.get? seq = some j)
    (differ : i.enabled ≠ j.enabled ∨ i.promiscuous ≠ j.promiscuous) :
    ∃ u, e.Updates event u ∧ u.id = i.id ∧ j.enabled = u.enabled ∧ j.promiscuous = u.promiscuous := by
  obtain same | ⟨u, updates, updated⟩ := step_interfaces e event
  · rw [same, before] at after
    cases after
    simp at differ
  · obtain ⟨n, k, found, hid, ht⟩ := InterfaceTable.update_eq_ok updated
    rw [ht, Sequenced.get?_modify] at after
    split at after
    · next hn =>
      subst hn
      rw [before] at found after
      cases found
      cases after
      exact ⟨u, updates, hid.symm, rfl, rfl⟩
    · rw [before] at after
      cases after
      simp at differ

/-! ## Main result -/

/-- What everybody is told while a client holds the lock, and what only its release
changes. -/
structure Exclusive (e : Engine) (a : ClientId) : Prop where
  holder : e.session.holder = some a
  lock : ∀ client m now action r, m.Carries .lockSession action r →
    (e.dispatch client m now).reply.status = .alreadyLocked
  unlock : ∀ client m now action r, client ≠ a → m.Carries .unlockSession action r →
    (e.dispatch client m now).reply.status = .wrongSession
  update : ∀ client m now i, client ≠ a → m.Carries .interface (some .update) (.interface i) →
    let o := e.dispatch client m now
    o.reply.status = .wrongSession ∧ o.events = [] ∧ o.engine = { e with metrics := o.engine.metrics }
  release : ∀ event : Event, event.Releases a → (e.step event).1.session.holder ≠ some a

theorem Holds.exclusive (h : e.Holds a) : e.Exclusive a where
  holder := h.holder
  lock client m now action r hc := by
    rw [dispatch_of_carries h.running hc, perform_lock, acquire, h.lock_eq client]
    rfl
  unlock client m now action r other hc := by
    rw [dispatch_of_carries h.running hc, perform_unlock, h.unlock_eq other]
    rfl
  update client m now i other hc := by
    have unheld : e.session.holder ≠ some client := by
      rw [h.holder]
      exact fun same => other (Option.some.inj same).symm
    have handled : e.perform client .interface (some .update) (.interface i) now = _ :=
      handleInterface_update_of_ne unheld i
    rw [dispatch_of_carries h.running hc, handled]
    exact ⟨rfl, rfl, rfl⟩
  release event hr := h.released hr

/-- **The lock is exclusive and guards the interfaces.** In any history of messages
and of calls of the host, other than those that take or give back the lock themselves:
a client that was given the lock holds it, and nobody else gets it or changes an
interface, as long as it does not release it, and it does not hold it once it does.
Nothing of the interfaces ever changes but their flags, and these only in an update that
is answered with `Status.ok` to the client that holds the lock. -/
theorem lock_exclusive (e : Engine) (history : List Event)
    (outside : ∀ event ∈ history, event.internal = false) :
    (∀ before lock held a, history = before ++ lock :: held → (e.run before).Locks lock a →
        (∀ event ∈ held, ¬ event.Releases a) → (e.run history).Exclusive a) ∧
      (e.run history).interfaces.frame = e.interfaces.frame ∧
      ∀ event seq i j, (e.run history).interfaces.interfaces.get? seq = some i →
        ((e.run history).step event).1.interfaces.interfaces.get? seq = some j →
          i.enabled ≠ j.enabled ∨ i.promiscuous ≠ j.promiscuous →
            ∃ u, (e.run history).Updates event u ∧ u.id = i.id ∧ j.enabled = u.enabled ∧
              j.promiscuous = u.promiscuous := by
  refine ⟨fun before lock held a split locks kept => ?_, frame_run e history, fun event seq i j hi hj hd => ?_⟩
  · have first := locks.holds
    have rest := first.run (fun event he => outside event (by simp [split, he])) kept
    rw [split, run_append]
    exact rest.exclusive
  · exact flags_step hi hj hd

namespace Small

/-- Another client than the one that registers. -/
def other : ClientId := ⟨{ Small.client.address with port := 7001 }⟩

/-- The flags that the first interface is to have. -/
def flagged : Interface := { Interface.blank with enabled := true, promiscuous := true }

def update : Wire.Message := message .interface .update (.interface flagged)

/-- What happens while the client holds the lock. -/
def contended : List Event :=
  [.message other update 1, .age 2, .message Small.client update 3]

end Small

/-- The other client changes nothing, and the holder sets a flag. -/
theorem lock_exclusive_small :
    let history := Small.send .lockSession .register .empty :: Small.contended
    let e := Small.engine.run history
    (∀ event ∈ history, event.internal = false) ∧ e.session.holder = some Small.client ∧
      (e.dispatch Small.other Small.update 6).reply.status = .wrongSession ∧
      (e.dispatch Small.client Small.update 6).reply.status = .ok ∧
      e.interfaces.interfaces.values.map (·.promiscuous) = [true, false] ∧
      e.interfaces.frame = Small.engine.interfaces.frame := by
  intro history e
  have outside : ∀ event ∈ history, event.internal = false := by decide
  have locks : (Small.engine.run []).Locks (Small.send .lockSession .register .empty) Small.client :=
    ⟨_, _, none, .empty, rfl, ⟨rfl, rfl, by decide +kernel⟩, by decide +kernel⟩
  have kept : ∀ event ∈ Small.contended, ¬ event.Releases Small.client := by
    intro event he hr
    simp only [Small.contended, List.mem_cons, List.not_mem_nil, or_false] at he
    have ne : Small.other ≠ Small.client := by decide
    rcases he with rfl | rfl | rfl
    · cases hr with
      | unlock hm _ => exact ne (congrArg (·.1) (Option.some.inj hm))
      | leave hm _ => exact ne (congrArg (·.1) (Option.some.inj hm))
    · cases hr with
      | unlock hm _ => cases hm
      | leave hm _ => cases hm
    · cases hr with
      | unlock hm hc =>
        cases hm
        cases hc.2.1
      | leave hm hk =>
        cases hm
        cases hk
  obtain ⟨holds, frame, -⟩ := lock_exclusive Small.engine history outside
  have exclusive := holds [] _ Small.contended Small.client rfl locks kept
  have refused := exclusive.update Small.other Small.update 6 Small.flagged (by decide)
    ⟨rfl, rfl, by decide +kernel⟩
  exact ⟨outside, exclusive.holder, refused.1, by decide +kernel, by decide +kernel, frame⟩

end Engine

end ControlPlane
