/-
The noted sizes of the tables are their sizes.

Every operation that makes a table larger or smaller notes the sizes at its end, so
they are right again after each event (`Reachable.noted`).
-/
import ControlPlane.Proofs.Engine.Change

namespace ControlPlane

theorem RouteTable.size_modify (t : RouteTable) (id : UInt32) (f : Route → Route) :
    (t.modify id f).size = t.size := by
  unfold modify
  split
  · rfl
  · exact Sequenced.size_modify ..

theorem ConnectionTable.size_modify (t : ConnectionTable) (seq : Nat) (f : Tracked → Tracked) :
    (t.modify seq f).size = t.size :=
  Sequenced.size_modify ..

theorem Subscribers.size_markUnreachable (s : Subscribers) (c : ClientId) :
    (s.markUnreachable c).size = s.size :=
  SortedMap.size_modify ..

namespace Engine

variable {e : Engine}

/-- The sizes of the tables as they are. -/
def sizes (e : Engine) : TableSizes where
  routes := .ofNat e.routes.size
  connections := .ofNat (e.connections.v4.size + e.connections.v6.size)
  clients := .ofNat e.subscribers.size

/-- The sizes that were noted last are right. -/
def Noted (e : Engine) : Prop := e.metrics.sizes = e.sizes

theorem noted_noteSizes (e : Engine) : e.noteSizes.Noted := rfl

theorem Noted.noteSizes_eq (h : e.Noted) : e.noteSizes = e := by
  have sizes : (e.metrics.note e.routes.size (e.connections.v4.size + e.connections.v6.size)
      e.subscribers.size) = e.metrics := by
    rw [Metrics.note]
    exact congrArg (fun sizes => { e.metrics with sizes }) h.symm
  rw [noteSizes, sizes]

theorem noted_ofConfig {config : Config} (h : ofConfig config = .ok e) : e.Noted := by
  obtain ⟨interfaces, -, rfl⟩ := ofConfig_eq_ok h
  rfl

theorem sizes_withConnections {f : Family} {t : ConnectionTable} (h : t.size = (e.connections.get f).size) :
    (e.withConnections f t).sizes = e.sizes := by
  cases f with
  | v4 => simp only [sizes, withConnections, PerFamily.set]; rw [h]; rfl
  | v6 => simp only [sizes, withConnections, PerFamily.set]; rw [h]; rfl

theorem account_noted (h : e.Noted) (f : Family) (key : FlowKey) (octets : UInt64) (now : Nat) :
    (e.account f key octets now).1.Noted := by
  obtain ⟨-, missed⟩ | ⟨_, _, _, -, -, counted⟩ := account_cases e f key octets now
  · rwa [missed]
  · rw [counted]
    have routes : ∀ e' : Engine, ∀ id g, Engine.sizes { e' with routes := e'.routes.modify id g } = e'.sizes := by
      intro e' id g
      simp only [sizes, RouteTable.size_modify]
    exact h.trans ((sizes_withConnections (ConnectionTable.size_modify ..)).symm.trans (routes ..).symm)

theorem dispatch_noted (h : e.Noted) (client : ClientId) (m : Wire.Message) (now : Nat) :
    (e.dispatch client m now).engine.Noted := by
  have handled : (e.handle client m now).engine.Noted := by
    unfold handle
    split
    · split
      · split
        · exact noted_noteSizes _
        · exact h
      · exact noted_noteSizes _
      · exact noted_noteSizes _
    · exact h
  exact handled

theorem step_noted (h : e.Noted) (event : Event) : (e.step event).1.Noted := by
  cases event with
  | message client m now => exact dispatch_noted h client m now
  | datagram client octets now =>
    simp only [step, receive]
    cases Wire.Message.decode octets with
    | error _ => exact h
    | ok m => exact dispatch_noted h client m now
  | age now =>
    simp only [step, age]
    split
    · exact noted_noteSizes _
    · exact h
  | packet f key octets now => exact account_noted h f key octets now
  | register | unregister => exact noted_noteSizes _
  | unreachable client =>
    show e.metrics.sizes = _
    rw [h]
    simp only [sizes, step, markUnreachable, Subscribers.size_markUnreachable]
  | acquire client =>
    simp only [step]
    cases hs : e.acquire client with
    | error _ => exact h
    | ok e' =>
      obtain ⟨_, -, rfl⟩ := map_eq_ok_iff.1 hs
      exact h
  | health | release => exact h
  | shutdown =>
    simp only [step, shutdown]
    split
    · exact noted_noteSizes _
    · exact h

/-- In every reachable engine the noted sizes are right. -/
theorem Reachable.noted (h : e.Reachable) : e.Noted :=
  h.induct (fun _ _ => noted_ofConfig) fun _ event he => step_noted he event

end Engine

end ControlPlane
