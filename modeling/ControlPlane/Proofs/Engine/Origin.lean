/-
Where a stored connection comes from.

Each stored connection was registered once, under its number and with all that identifies
it (`registered_of_stored`). A touch that is not about a flag shows a connection to be in
use, as registering it does, so it was seen last when the history last showed it to be in
use (`last_sighting`).
-/
import ControlPlane.Proofs.Engine.Touch

namespace ControlPlane.Engine

variable {e : Engine} {event : Event} {client : ClientId} {m : Wire.Message} {now seq : Nat} {f : Family}
  {action : Action} {c : Wire.Connection} {entry : Tracked}

/-! ## Signs of life -/

/-- The number of the connection that a command shows to be in use. -/
def shown? (e : Engine) (action : Action) (c : Wire.Connection) : Option Nat :=
  match action with
  | .register => some (e.connections.get c.family).connections.next
  | .keepAlive => (e.connections.get c.family).find? c.protocol c.orig
  | .deregister | .query | .queryCont | .update | .removed => none

/-- The connection that an event shows to be in use, by its family and its number,
and when. It is registered or kept alive, or a packet belongs to it. -/
def sighting? (e : Engine) (event : Event) : Option (Family × Nat × Nat) :=
  match event with
  | .packet f key _ now => ((e.connections.get f).flows.get? key).map fun (seq, _) => (f, seq, now)
  | event => (e.accepted? event).bind fun (action, c, now) =>
      (e.shown? action c).map fun seq => (c.family, seq, now)

/-- When a history shows a connection to be in use. -/
def sightings (e : Engine) (f : Family) (seq : Nat) : List Event → List Nat
  | [] => []
  | event :: history =>
    (((e.sighting? event).filter fun s => s.1 = f ∧ s.2.1 = seq).map (·.2.2)).toList ++
      (e.step event).1.sightings f seq history

theorem sighting?_of_message (hm : event.message? = some (client, m, now)) :
    e.sighting? event =
      (e.accepted? event).bind fun (action, c, now) => (e.shown? action c).map fun seq => (c.family, seq, now) := by
  cases event with
  | packet => cases hm
  | _ => rfl

/-- Where a connection comes from that is stored after an event. -/
inductive Origin (e : Engine) (event : Event) (f : Family) (seq : Nat) (entry : Tracked) : Prop
  | registered {c : Wire.Connection} {now : Nat} (h : e.accepted? event = some (.register, c, now))
      (hf : c.family = f) (hs : seq = (e.connections.get f).connections.next) (he : entry = ⟨c, now, now⟩)
  | shown {old : Tracked} (h : (e.connections.get f).get? seq = some old)
      (same : entry.identity = old.identity) (hs : e.sighting? event = some (f, seq, entry.seen))
  | left {old : Tracked} (h : (e.connections.get f).get? seq = some old)
      (same : entry.identity = old.identity) (seen : entry.seen = old.seen)
      (hn : ∀ now, e.sighting? event ≠ some (f, seq, now))

/-- When a touch shows the connection to be in use. -/
def Touch.instant? : Touch → Option Nat
  | .seen now | .packet _ _ now => some now
  | .flagged _ => none

theorem Touch.seen_on (touch : Touch) (entry : Tracked) :
    (touch.on entry).seen = touch.instant?.getD entry.seen := by
  cases touch <;> rfl

/-- An event shows a stored connection to be in use by touching it. -/
theorem sighting?_eq_some_iff {old : Tracked} (stored : (e.connections.get f).get? seq = some old) {t : Nat} :
    e.sighting? event = some (f, seq, t) ↔ ∃ touch, e.touchOf? event f seq = some touch ∧ touch.instant? = some t := by
  simp only [touchOf?_eq_some_iff]
  cases hm : event.message? with
  | some sent =>
    obtain ⟨client, m, now⟩ := sent
    rw [sighting?_of_message hm, touch?_of_message hm]
    cases e.accepted? event with
    | none => simp
    | some sent =>
      obtain ⟨action, c, now⟩ := sent
      cases action with
      | register =>
        have old : (e.connections.get f).connections.next ≠ seq :=
          Nat.ne_of_gt (Nat.lt_succ_of_le (Sequenced.le_last stored))
        simp only [Option.bind_some, shown?, Touch.ofCommand?, Option.bind_none, Option.map_some, reduceCtorEq,
          false_and, exists_false, iff_false]
        intro same
        cases same
        exact old rfl
      | keepAlive =>
        cases hs : (e.connections.get c.family).find? c.protocol c.orig with
        | none => simp [shown?, Touch.ofCommand?, hs]
        | some n => simp [shown?, Touch.ofCommand?, hs, Touch.instant?, and_assoc]
      | update =>
        cases hs : (e.connections.get c.family).find? c.protocol c.orig with
        | none => simp [shown?, Touch.ofCommand?, hs]
        | some n => simp [shown?, Touch.ofCommand?, hs, Touch.instant?]
      | deregister | query | queryCont | removed => simp [shown?, Touch.ofCommand?]
  | none =>
    cases event with
    | packet g key octets now =>
      cases hk : (e.connections.get g).flows.get? key with
      | none => simp [sighting?, touch?, hk]
      | some flow => simp [sighting?, touch?, hk, Touch.instant?, and_assoc]
    | _ => simp [sighting?, touch?, accepted?, hm]

theorem step_origin (h : ((e.step event).1.connections.get f).get? seq = some entry) :
    Origin e event f seq entry := by
  cases step_arises h with
  | registered accepted family number stored => exact .registered accepted family number stored
  | @kept old before he =>
    cases ht : e.touchOf? event f seq with
    | none =>
      obtain rfl : entry = old := by rw [he, ht]; rfl
      refine .left before rfl rfl fun now sighted => ?_
      obtain ⟨touch, touched, -⟩ := (sighting?_eq_some_iff before).1 sighted
      rw [ht] at touched
      cases touched
    | some touch =>
      obtain rfl : entry = touch.on old := by rw [he, ht]; rfl
      have same := touch.identity_on old
      cases hi : touch.instant? with
      | some t =>
        have seen : (touch.on old).seen = t := by rw [touch.seen_on, hi, Option.getD_some]
        exact .shown before same ((sighting?_eq_some_iff before).2 ⟨touch, ht, seen ▸ hi⟩)
      | none =>
        refine .left before same (by rw [touch.seen_on, hi, Option.getD_none]) fun now sighted => ?_
        obtain ⟨touch', touched, shown⟩ := (sighting?_eq_some_iff before).1 sighted
        cases ht.symm.trans touched
        rw [hi] at shown
        cases shown

/-! ## Histories -/

/-- What is stored under a number that was given out before is what was stored
then. -/
theorem identity_run (history : List Event) (issued : seq ≤ (e.connections.get f).connections.last)
    (h : ((e.run history).connections.get f).get? seq = some entry) :
    ∃ old, (e.connections.get f).get? seq = some old ∧ entry.identity = old.identity := by
  obtain ⟨old, before, rfl⟩ := replay_run history issued h
  exact ⟨old, before, Touch.identity_replay _ old⟩

/-- A history registers a record under a number. -/
def Registers (e : Engine) (history : List Event) (f : Family) (seq : Nat) (c : Wire.Connection) : Prop :=
  ∃ before event after now, history = before ++ event :: after ∧
    (e.run before).accepted? event = some (.register, c, now) ∧ c.family = f ∧
    seq = ((e.run before).connections.get f).connections.next

theorem stored_of_accepted (h : e.accepted? event = some (.register, c, now)) :
    ∃ metrics t, (e.connections.get c.family).add c now = .ok ((e.connections.get c.family).connections.next, t) ∧
      (e.step event).1 = { e.withConnections c.family t with metrics } := by
  obtain ⟨client, m, hm, running, hc, ok⟩ := accepted?_eq_some h
  rw [step_of_message hm, dispatch_connection running hc]
  have handled := handleConnection_handled e .register c now
  generalize e.handleConnection .register c now = o at ok handled
  cases handled with
  | registered _ ht =>
    obtain ⟨-, -, -, rfl, -⟩ := ConnectionTable.add_eq_ok_iff.1 ht
    exact ⟨_, _, ht, rfl⟩
  | shown ha _ | flagged ha _ | removed ha _ | listed ha _ => cases ha
  | refused hs => exact absurd ok hs

/-- A stored connection is identified as the record that was registered under its
number. -/
theorem Registers.identity {history : List Event} (hr : e.Registers history f seq c)
    (h : ((e.run history).connections.get f).get? seq = some entry) :
    ∃ now, entry.identity = (⟨c, now, now⟩ : Tracked).identity := by
  obtain ⟨before, event, after, now, rfl, accepted, rfl, rfl⟩ := hr
  obtain ⟨metrics, t, added, stepped⟩ := stored_of_accepted accepted
  rw [run_append, run_cons, stepped] at h
  have table : ({ (e.run before).withConnections c.family t with metrics } : Engine).connections.get c.family = t := by
    rw [get_withConnections, if_pos rfl]
  have stored : t.get? ((e.run before).connections.get c.family).connections.next = some ⟨c, now, now⟩ := by
    rw [ConnectionTable.get?_add added, if_pos rfl]
  obtain ⟨old, there, same⟩ := identity_run after (by rw [table]; exact Sequenced.le_last stored) h
  rw [table, stored] at there
  cases there
  exact ⟨now, same⟩

/-- What is stored was stored at the start or is registered by the history. -/
theorem registers_of_stored {history : List Event} (h : ((e.run history).connections.get f).get? seq = some entry) :
    (∃ c, e.Registers history f seq c) ∨ ∃ old, (e.connections.get f).get? seq = some old := by
  induction history generalizing e with
  | nil => exact .inr ⟨entry, h⟩
  | cons event history ih =>
    obtain ⟨c, before, event', after, now, rfl, accepted, family, number⟩ | ⟨mid, between⟩ := ih h
    · exact .inl ⟨c, event :: before, event', after, now, rfl, accepted, family, number⟩
    · cases step_origin between with
      | @registered c now accepted family number _ =>
        exact .inl ⟨c, [], event, history, now, rfl, accepted, family, number⟩
      | shown before _ _ | left before _ _ _ => exact .inr ⟨_, before⟩

theorem not_stored_ofConfig {config : Config} (h : ofConfig config = .ok e) (f : Family) (seq : Nat) :
    (e.connections.get f).get? seq = none := by
  obtain ⟨interfaces, -, rfl⟩ := ofConfig_eq_ok h
  cases f <;> rfl

/-- What a new engine comes to store was registered. -/
theorem registered_of_stored {config : Config} {history : List Event} (start : ofConfig config = .ok e)
    (h : ((e.run history).connections.get f).get? seq = some entry) : ∃ c, e.Registers history f seq c := by
  obtain registered | ⟨old, before⟩ := registers_of_stored h
  · exact registered
  · rw [not_stored_ofConfig start] at before
    cases before

theorem family_of_stored {config : Config} {history : List Event} (start : ofConfig config = .ok e)
    (h : ((e.run history).connections.get f).get? seq = some entry) : entry.connection.family = f := by
  obtain ⟨c, registers⟩ := registered_of_stored start h
  obtain ⟨now, same⟩ := registers.identity h
  obtain ⟨_, _, _, _, _, _, family, _⟩ := registers
  have kept : entry.connection.family = c.family := congrArg (fun x => x.connection.family) same
  exact kept.trans family

end ControlPlane.Engine
