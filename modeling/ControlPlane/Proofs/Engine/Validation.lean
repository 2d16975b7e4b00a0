/-
The statuses of messages that are refused as they stand.

A command's first objection is its whole answer: the engine and the sender have no part in
it, and nothing but the count of the code is changed (`dispatch_of_objection`). The
statuses of handlers and of objections have only the wrong parameter in common, so a
status also tells which checks a command has passed (`checked_in_order`).

A payload of the wrong size is told apart from one that cannot be read where a command is
checked, but not where a client is announced (`wrong_size_iff`).

Main results: `checked_in_order`, `wrong_size_iff`.
-/
import ControlPlane.Proofs.Engine.Presence
import ControlPlane.Proofs.Wire.Announcements

namespace ControlPlane

namespace Engine

open Wire (Message)

variable {e : Engine} {m : Message} {o : Objection}

/-! ## Refusals -/

/-- A message that is refused, and counted. -/
def turnedAway (e : Engine) (m : Message) (status : Status) : Outcome :=
  ⟨{ e with metrics := e.metrics.answered m.code false }, .ofStatus status, []⟩

theorem dispatch_of_refused {status : Status} {client : ClientId} {now : Nat} (failed : status ≠ .ok)
    (h : e.handle client m now = e.refused status) : e.dispatch client m now = e.turnedAway m status := by
  have counted : status.isOk = false := by simpa [Status.isOk] using failed
  rw [dispatch, h]
  simp only [refused, turnedAway, Wire.Reply.ofStatus, counted]

/-- A command that is refused, by a check or by its handler, changes only what is counted. -/
theorem Reachable.dispatch_of_execute (h : e.Reachable) (running : e.running = true) (hk : m.kind = .command)
    {status : Status} {client : ClientId} {now : Nat} (failed : status ≠ .ok)
    (refusal : e.execute client m now = e.refused status) : e.dispatch client m now = e.turnedAway m status := by
  refine dispatch_of_refused failed ?_
  rw [handle_command running hk, refusal]
  simp only [refused, h.noted.noteSizes_eq]

/-- The first objection to a command is the whole answer. -/
theorem Reachable.dispatch_of_objection (h : e.Reachable) (running : e.running = true) (hk : m.kind = .command)
    (ho : m.objection? = some o) (client : ClientId) (now : Nat) :
    e.dispatch client m now = e.turnedAway m o.status :=
  h.dispatch_of_execute running hk o.status_ne_ok (execute_of_objection hk ho)

theorem Reachable.status_dispatch (h : e.Reachable) (running : e.running = true) (hk : m.kind = .command)
    (client : ClientId) (now : Nat) :
    (∃ o, m.objection? = some o ∧ (e.dispatch client m now).reply.status = o.status) ∨
      m.objection? = none ∧ (e.dispatch client m now).reply.status ∈ Status.performed := by
  have handled : (e.dispatch client m now).reply.status = (e.execute client m now).reply.status := by
    show (e.handle client m now).reply.status = _
    rw [handle_command running hk]
  rw [handled]
  exact h.sound.status_execute hk client now

/-- **Commands are checked in order.** In a reachable engine that runs, the first objection
to a command decides its answer, whatever is stored, whoever sends it and whether or not
the sender holds the lock, and nothing is done but that the command is counted. A command
that there is no objection to is answered with what handlers answer. So only such a command
is told of an entry that is there already or is not, or of the lock, and only such a command
changes more than what is counted. -/
theorem checked_in_order {e : Engine} (h : e.Reachable) (running : e.running = true) {m : Message}
    (hk : m.kind = .command) (client : ClientId) (now : Nat) :
    let o := e.dispatch client m now
    (∀ objection, m.objection? = some objection → o = e.turnedAway m objection.status) ∧
      (m.objection? = none → o.reply.status ∈ Status.performed) ∧
      (o.reply.status ∈ [.alreadyRegistered, .entryNotFound, .alreadyLocked, .notLocked, .wrongSession] →
        m.objection? = none) ∧
      (o.engine ≠ { e with metrics := o.engine.metrics } → m.objection? = none) := by
  intro o
  refine ⟨fun objection ho => h.dispatch_of_objection running hk ho client now, fun none => ?_, fun told => ?_,
    fun changed => ?_⟩
  · obtain ⟨_, ho, -⟩ | ⟨-, performed⟩ := h.status_dispatch running hk client now
    · rw [none] at ho
      cases ho
    · exact performed
  · obtain ⟨objection, -, status⟩ | ⟨none, -⟩ := h.status_dispatch running hk client now
    · rw [status] at told
      cases objection <;> exact absurd told (by decide)
    · exact none
  · cases ho : m.objection? with
    | none => rfl
    | some objection =>
      refine absurd ?_ changed
      simp only [o, h.dispatch_of_objection running hk ho client now, turnedAway]

/-- An event with an unknown action and contradictory flags is refused for its action, one
with a known action for its flags. A route that is deregistered without being there gets to
its handler. -/
theorem checked_in_order_small :
    let event := Command.connectionChange .v4
    let unknown : Message := ⟨.command, event.code, List.replicate event.recordSize 0xFF⟩
    let known : Message := ⟨.command, event.code, [0, 3] ++ List.replicate (event.recordSize - 2) 0xFF⟩
    let drop := Small.message .route .deregister (.route (.ofId 8))
    Small.engine.Reachable ∧ Small.engine.running = true ∧
      Objection.inOrder.filter unknown.raises = [.unknownAction, .unreadable, .eventOnly] ∧
      Small.engine.dispatch Small.client unknown 0 = Small.engine.turnedAway unknown .unknownAction ∧
      Objection.inOrder.filter known.raises = [.unreadable, .eventOnly, .unsupported] ∧
      Small.engine.dispatch Small.client known 0 = Small.engine.turnedAway known .wrongParam ∧
      (Small.engine.dispatch Small.client drop 0).reply.status = .entryNotFound ∧ drop.objection? = none := by
  intro event unknown known drop
  have running : Small.engine.running = true := by decide +kernel
  have missing : (Small.engine.dispatch Small.client drop 0).reply.status = .entryNotFound := by decide +kernel
  have checked := fun m hk => @checked_in_order Small.engine Small.engine_reachable running m hk Small.client 0
  refine ⟨Small.engine_reachable, running, by decide +kernel, ?_, by decide +kernel, ?_, missing, ?_⟩
  · exact (checked unknown rfl).1 .unknownAction (by decide +kernel)
  · exact (checked known rfl).1 .unreadable (by decide +kernel)
  · refine (checked drop rfl).2.2.1 ?_
    rw [missing]
    decide

/-! ## Sizes -/

theorem objection?_eq_wrongSize_iff :
    m.objection? = some .wrongSize ↔
      ∃ command, Command.ofCode? m.code = some command ∧ m.payload.length ≠ command.recordSize := by
  cases hc : Command.ofCode? m.code with
  | none => simp [Message.objection?_of_unknown hc]
  | some command =>
    simp only [Message.objection?_eq hc, Option.some.injEq, exists_eq_left']
    split_ifs with size <;> simp [size]

theorem objection?_of_rejects {command : Command} (hc : Command.ofCode? m.code = some command)
    (size : m.payload.length = command.recordSize) (rejected : command.rejects m.payload = true) :
    m.objection? =
      some (if command.hasAction = true ∧ Action.ofNumber? m.actionNumber = none then .unknownAction
        else .unreadable) := by
  rw [Message.objection?_eq hc, if_neg (not_not_intro size), if_pos rejected]
  split <;> rfl

theorem Reachable.objection?_of_wrongSize (h : e.Reachable) (running : e.running = true) (hk : m.kind = .command)
    {client : ClientId} {now : Nat} (wrong : (e.dispatch client m now).reply.status = .wrongSize) :
    m.objection? = some .wrongSize := by
  obtain ⟨o, ho, status⟩ | ⟨-, performed⟩ := h.status_dispatch running hk client now
  · rw [wrong] at status
    cases o <;> first | exact ho | cases status
  · rw [wrong] at performed
    exact absurd performed (by decide)

/-- An announcement is accepted or refused for its size, whatever is wrong with it. -/
theorem dispatch_register (running : e.running = true) (hk : m.kind = .register) (client : ClientId) (now : Nat) :
    (Wire.Registration.decode m.payload).isOk = true ∧ (e.dispatch client m now).reply.status = .ok ∨
      (Wire.Registration.decode m.payload).isOk = false ∧ e.dispatch client m now = e.turnedAway m .wrongSize := by
  cases read : Wire.Registration.decode m.payload with
  | ok backChannel =>
    refine .inl ⟨rfl, ?_⟩
    show (e.handle client m now).reply.status = .ok
    rw [handle_joining running hk read]
    rfl
  | error fault =>
    exact .inr ⟨rfl, dispatch_of_refused (by decide) (handle_misread running hk read)⟩

/-- **What a wrong size means.** In a reachable engine that runs, a command is answered with
the wrong size just when its payload has not the size of its record; when a field of that
payload says nothing, the parameter is wrong, unless the action was unknown before. But an
announcement is answered with the wrong size also when it has its size and no family's
number in front; it is never told of a wrong parameter. Whatever is refused so changes
nothing but what is counted. -/
theorem wrong_size_iff {e : Engine} (h : e.Reachable) (running : e.running = true) (client : ClientId) (m : Message)
    (now : Nat) :
    let o := e.dispatch client m now
    (m.kind = .command →
      (o.reply.status = .wrongSize ↔
          ∃ command, Command.ofCode? m.code = some command ∧ m.payload.length ≠ command.recordSize) ∧
        (o.reply.status = .wrongSize → o = e.turnedAway m .wrongSize) ∧
        ∀ command, Command.ofCode? m.code = some command → m.payload.length = command.recordSize →
          command.rejects m.payload = true →
            o = e.turnedAway m
              (if command.hasAction = true ∧ Action.ofNumber? m.actionNumber = none then .unknownAction
                else .wrongParam)) ∧
      (m.kind = .register →
        (o.reply.status = .wrongSize ↔
            m.payload.length ≠ Wire.Registration.size ∨ Wire.Layout.octet.readAt 0 m.payload ∉ [4, 6]) ∧
          (o.reply.status = .ok ∨ o = e.turnedAway m .wrongSize)) := by
  intro o
  refine ⟨fun hk => ?_, fun hk => ?_⟩
  · have refusal : ∀ objection, m.objection? = some objection → o = e.turnedAway m objection.status :=
      fun objection ho => h.dispatch_of_objection running hk ho client now
    refine ⟨?_, fun wrong => refusal _ (h.objection?_of_wrongSize running hk wrong), fun command hc size rejected => ?_⟩
    · rw [← objection?_eq_wrongSize_iff]
      exact ⟨h.objection?_of_wrongSize running hk, fun ho => by rw [refusal _ ho]; rfl⟩
    · rw [refusal _ (objection?_of_rejects hc size rejected)]
      split <;> rfl
  · have readable := @Wire.Registration.decode_isOk_iff m.payload
    obtain ⟨read, ok⟩ | ⟨unread, refused⟩ := dispatch_register running hk client now
    · obtain ⟨size, family⟩ := readable.1 read
      refine ⟨?_, .inl ok⟩
      simp only [o, ok, size, family, ne_eq, not_true_eq_false, or_self, iff_false]
      exact Status.noConfusion
    · refine ⟨iff_of_true (by rw [show o = _ from refused]; rfl) ?_, .inr refused⟩
      by_contra fine
      rw [not_or, not_ne_iff, not_not] at fine
      exact Bool.false_ne_true (unread.symm.trans (readable.2 fine))

/-- Two octets are no route. A connection's flags contradict each other. An IPv6
back-channel is announced. -/
theorem wrong_size_iff_small :
    let command : Message := ⟨.command, Command.route.code, [0, 0]⟩
    let flags : Message :=
      ⟨.command, (Command.connection .v4).code, [0, 0] ++ List.replicate (Command.connectionSize .v4 - 2) 3⟩
    let v6 : Message := ⟨.register, 0, 6 :: List.replicate 19 0⟩
    Small.engine.Reachable ∧ Small.engine.running = true ∧
      (Small.engine.dispatch Small.client command 0).reply.status = .wrongSize ∧
      Small.engine.dispatch Small.client flags 0 = Small.engine.turnedAway flags .wrongParam ∧
      (Small.engine.dispatch Small.client v6 0).reply.status ≠ .wrongSize := by
  intro command flags v6
  have running : Small.engine.running = true := by decide +kernel
  have means := wrong_size_iff Small.engine_reachable running Small.client
  refine ⟨Small.engine_reachable, running, ?_, ?_, fun wrong => ?_⟩
  · exact ((means command 0).1 rfl).1.2 ⟨.route, by decide, by decide⟩
  · have refused := ((means flags 0).1 rfl).2.2 (.connection .v4) (by decide) (by decide) (by decide +kernel)
    rwa [if_neg (by decide +kernel)] at refused
  · exact absurd (((means v6 0).2 rfl).1.1 wrong) (by decide +kernel)

/-- An announcement of the right size with an unknown family is answered with the wrong
size. -/
theorem family_answered_as_size :
    let m : Message := ⟨.register, 0, 5 :: List.replicate 19 0⟩
    Small.start.Reachable ∧ Small.start.running = true ∧ m.payload.length = Wire.Registration.size ∧
      (Small.start.dispatch Small.client m 0).reply.status = .wrongSize := by
  intro m
  exact ⟨⟨Small.config, _, [], rfl, rfl⟩, by decide +kernel, rfl, by decide +kernel⟩

end Engine

end ControlPlane
