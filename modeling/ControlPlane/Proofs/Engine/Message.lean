/-
What a message carries, and how a message that carries a command is performed.

A message carries a command with an action and a record (`Wire.Message.Carries`) when it
can be read as these, and then it carries nothing else (`Carries.unique`). In an engine
that runs it is answered by performing the command (`dispatch_of_carries`).
-/
import ControlPlane.Engine.Dispatch

namespace ControlPlane

theorem map_eq_ok_iff {ε α β : Type} {x : Except ε α} {f : α → β} {b : β} :
    x.map f = .ok b ↔ ∃ a, x = .ok a ∧ f a = b := by
  cases x <;> simp [Except.map]

theorem map_eq_error_iff {ε α β : Type} {x : Except ε α} {f : α → β} {s : ε} :
    x.map f = .error s ↔ x = .error s := by
  cases x <;> simp [Except.map]

namespace Wire.Message

/-- The message is a command with an action, where the command has one, and a
record. -/
def Carries (m : Message) (command : Command) (action : Option Action) (r : Record) : Prop :=
  m.kind = .command ∧ m.code = command.code ∧ Record.decode m = .ok (action.map Action.number, r)

theorem action?_eq_none {m : Message} (h : m.action? = none) : m.payload.length < 2 := by
  unfold action? at h
  split at h
  · cases h
  · next hne =>
    match hp : m.payload with
    | [] | [_] => simp
    | a :: b :: rest => exact absurd hp (hne a b rest)

variable {m : Message} {command command' : Command} {action action' : Option Action} {r r' : Record}

theorem Carries.command_eq (h : m.Carries command action r) : Command.ofCode? m.code = some command := by
  rw [h.2.1, Command.ofCode?_code]

/-- A message carries one command with one action and one record. -/
theorem Carries.unique (h : m.Carries command action r) (h' : m.Carries command' action' r') :
    command = command' ∧ action = action' ∧ r = r' := by
  have hc : command = command' := Option.some.inj (h.command_eq.symm.trans h'.command_eq)
  have hd := h.2.2.symm.trans h'.2.2
  simp only [Except.ok.injEq, Prod.mk.injEq] at hd
  refine ⟨hc, ?_, hd.2⟩
  have back : ∀ a : Option Action, (a.map Action.number).bind Action.ofNumber? = a := fun a => by
    cases a <;> simp
  rw [← back action, hd.1, back]

/-- What reading the record of a command's message comes down to. -/
theorem decode_eq (h : Command.ofCode? m.code = some command) :
    Record.decode m =
      if m.payload.length ≠ command.recordSize then
        .error (.malformedRecord m.code command.recordSize m.payload.length)
      else
        (Record.ofPayload command m.payload).map fun r =>
          (if command.hasAction then m.action? else none, r) := by
  simp [Record.decode, h]

theorem Carries.size_eq (h : m.Carries command action r) : m.payload.length = command.recordSize := by
  have hd := h.2.2
  rw [decode_eq h.command_eq] at hd
  split at hd
  · cases hd
  · next hs => exact Decidable.not_not.1 hs

theorem Carries.ofPayload_eq (h : m.Carries command action r) : Record.ofPayload command m.payload = .ok r := by
  have hd := h.2.2
  rw [decode_eq h.command_eq, if_neg (not_not_intro h.size_eq)] at hd
  obtain ⟨r', read, same⟩ := map_eq_ok_iff.1 hd
  rw [read, (Prod.mk.inj same).2]

theorem Carries.route_decoded {r : Route} (h : m.Carries .route action (.route r)) :
    Route.decode m.payload = .ok r := by
  obtain ⟨r', read, same⟩ := map_eq_ok_iff.1 h.ofPayload_eq
  rw [read, Record.route.inj same]

theorem Carries.connection_decoded {f : Family} {c : Connection}
    (h : m.Carries (.connection f) action (.connection c)) : Connection.decode f m.payload = .ok c := by
  obtain ⟨c', read, same⟩ := map_eq_ok_iff.1 h.ofPayload_eq
  rw [read, Record.connection.inj same]

/-- A record that starts with an action has room for one. -/
theorem two_le_recordSize (h : command.hasAction = true) : 2 ≤ command.recordSize := by
  cases command with
  | connection f => cases f <;> decide
  | connectionChange f => cases f <;> decide
  | _ => first | decide | cases h

theorem Carries.requiredAction_eq (h : m.Carries command action r) :
    Engine.requiredAction command m = .ok action := by
  have hd := h.2.2
  have hs := h.size_eq
  rw [decode_eq h.command_eq, if_neg (not_not_intro hs)] at hd
  cases hp : Record.ofPayload command m.payload with
  | error _ => rw [hp] at hd; cases hd
  | ok r' =>
    rw [hp] at hd
    simp only [Except.map, Except.ok.injEq, Prod.mk.injEq] at hd
    unfold Engine.requiredAction
    cases ha : command.hasAction with
    | false =>
      rw [ha] at hd
      obtain rfl : action = none := by cases action <;> simp_all
      rfl
    | true =>
      rw [ha] at hd
      cases hn : m.action? with
      | none =>
        have := action?_eq_none hn
        have := two_le_recordSize ha
        omega
      | some n =>
        rw [hn] at hd
        obtain ⟨a, rfl, rfl⟩ := Option.map_eq_some_iff.1 hd.1.symm
        simp

end Wire.Message

namespace Engine

open Wire (Message)

variable {e : Engine} {client : ClientId} {m : Message} {now : Nat} {command : Command}
  {action : Option Action} {r : Wire.Record}

theorem execute_of_carries (h : m.Carries command action r) :
    e.execute client m now = e.perform client command action r now := by
  simp only [execute, h.command_eq, h.size_eq, h.requiredAction_eq, h.2.2, ne_eq, not_true_eq_false, if_false]

/-- An engine that was shut down answers nothing else than that it failed. -/
theorem handle_of_not_running (h : e.running = false) :
    e.handle client m now = e.refused .internalFailure := by
  simp [handle, h]

theorem handle_command (h : e.running = true) (hk : m.kind = .command) :
    e.handle client m now =
      { e.execute client m now with engine := (e.execute client m now).engine.noteSizes } := by
  simp [handle, h, hk]

theorem handle_joining {backChannel : SocketAddress} (h : e.running = true) (hk : m.kind = .register)
    (read : Wire.Registration.decode m.payload = .ok backChannel) :
    e.handle client m now = ⟨e.registerClient client backChannel, .ok, []⟩ := by
  simp [handle, h, hk, read]

theorem handle_misread {fault : Error} (h : e.running = true) (hk : m.kind = .register)
    (read : Wire.Registration.decode m.payload = .error fault) :
    e.handle client m now = e.refused .wrongSize := by
  simp [handle, h, hk, read]

theorem handle_leaving (h : e.running = true) (hk : m.kind = .unregister) :
    e.handle client m now = ⟨e.unregisterClient client, .ok, []⟩ := by
  simp [handle, h, hk]

theorem running_of_ok (h : (e.dispatch client m now).reply.status = .ok) : e.running = true := by
  cases hr : e.running with
  | true => rfl
  | false =>
    have : (e.handle client m now).reply.status = .ok := h
    rw [handle_of_not_running hr] at this
    cases this

/-- The outcome of a message that carries a command is that of performing it, once
sizes and answer are noted. -/
theorem dispatch_of_carries (hr : e.running = true) (h : m.Carries command action r) :
    e.dispatch client m now =
      let o := e.perform client command action r now
      { o with
        engine :=
          { o.engine with
            metrics := o.engine.noteSizes.metrics.answered m.code o.reply.status.isOk } } := by
  rw [dispatch, handle_command hr h.1, execute_of_carries h]
  rfl

theorem settled_status_ok {x : Except Status Engine} (hx : x ≠ .error .ok)
    (h : (e.settled x).reply.status = .ok) : ∃ e', x = .ok e' ∧ e.settled x = ⟨e', .ok, []⟩ := by
  cases x with
  | ok e' => exact ⟨e', rfl, rfl⟩
  | error status => exact absurd (congrArg Except.error h) hx

end Engine

end ControlPlane
