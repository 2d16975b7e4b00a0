/-
Why a command is refused before anything is looked up.

There are six objections to a command (`Objection`), each of which can be raised or not by
the message alone (`Message.raises`), and the first that is raised decides the answer
(`execute_of_objection`). The order is spread over the size of the record, the number of
the action, the reader of the record and the handlers, the last of which refuse an action
that they do not know. What no objection is raised to carries a command that is carried out
(`carries_of_unobjected`). So a command is performed, or its answer depends on nothing but
the message (`execute_cases`).
-/
import ControlPlane.Proofs.Engine.Message
import ControlPlane.Proofs.Wire.Reading
import Mathlib.Tactic.SplitIfs

namespace ControlPlane

namespace Command

/-- Events of the engine, which it does not take as commands. -/
def isEvent : Command → Bool
  | connectionChange _ | healthEvent => true
  | lockSession | unlockSession | interface | route | connection _ | reset _ | setTimeout => false

/-- What can be done with the record of a command. -/
def actions : Command → List Action
  | route => [.register, .deregister, .query, .queryCont]
  | connection _ => [.register, .deregister, .keepAlive, .update, .query, .queryCont]
  | interface => [.update, .query, .queryCont]
  | lockSession | unlockSession | connectionChange _ | reset _ | setTimeout | healthEvent => []

/-- The commands that are carried out, each with what comes with it. -/
inductive Takes : Command → Option Action → Wire.Record → Prop
  | route {action : Action} (h : action ∈ Command.route.actions) (r : Wire.Route) :
      Takes .route (some action) (.route r)
  | connection {action : Action} (c : Wire.Connection) (h : action ∈ (Command.connection c.family).actions) :
      Takes (.connection c.family) (some action) (.connection c)
  | interface {action : Action} (h : action ∈ Command.interface.actions) (i : Interface) :
      Takes .interface (some action) (.interface i)
  | setTimeout (t : Wire.IdleTimeout) : Takes .setTimeout none (.idleTimeout t)
  | lockSession : Takes .lockSession none .empty
  | unlockSession : Takes .unlockSession none .empty
  | reset (f : Family) : Takes (.reset f) none .empty

theorem takes_of_belongs {command : Command} {action : Option Action} {r : Wire.Record}
    (belongs : r.Belongs command) (event : command.isEvent = false) (acts : action.isSome = command.hasAction)
    (supported : ∀ a, action = some a → a ∈ command.actions) : command.Takes action r := by
  have some_of : command.hasAction = true → ∃ a, action = some a := fun has =>
    Option.isSome_iff_exists.1 (acts.trans has)
  have none_of : command.hasAction = false → action = none := fun has =>
    Option.isNone_iff_eq_none.1 (by rw [← Option.not_isSome, acts, has]; rfl)
  cases r with
  | route x =>
    rw [Wire.Record.Belongs] at belongs
    subst belongs
    obtain ⟨a, rfl⟩ := some_of rfl
    exact .route (supported a rfl) x
  | interface i =>
    rw [Wire.Record.Belongs] at belongs
    subst belongs
    obtain ⟨a, rfl⟩ := some_of rfl
    exact .interface (supported a rfl) i
  | connection c =>
    obtain rfl | rfl := belongs
    · obtain ⟨a, rfl⟩ := some_of rfl
      exact .connection c (supported a rfl)
    · cases event
  | idleTimeout t =>
    rw [Wire.Record.Belongs] at belongs
    subst belongs
    obtain rfl := none_of rfl
    exact .setTimeout t
  | health =>
    rw [Wire.Record.Belongs] at belongs
    subst belongs
    cases event
  | empty => obtain rfl | rfl | ⟨f, rfl⟩ := belongs <;> obtain rfl := none_of rfl <;> constructor

end Command

/-- What can be wrong with a command by itself. -/
inductive Objection where
  /-- There is no command of the code. -/
  | unknownCode
  /-- The payload is longer or shorter than the command's record. -/
  | wrongSize
  /-- There is no action of the number in front. -/
  | unknownAction
  /-- A field of the record says nothing. -/
  | unreadable
  /-- The command is an event. -/
  | eventOnly
  /-- The action is none of the command's. -/
  | unsupported
  deriving DecidableEq, Repr

namespace Objection

/-- The objections in the order in which they are looked for. -/
def inOrder : List Objection := [unknownCode, wrongSize, unknownAction, unreadable, eventOnly, unsupported]

def status : Objection → Status
  | unknownCode | eventOnly => .unknownCommand
  | wrongSize => .wrongSize
  | unknownAction | unsupported => .unknownAction
  | unreadable => .wrongParam

theorem status_ne_ok (o : Objection) : o.status ≠ .ok := by cases o <;> decide

end Objection

/-- What a command can be answered with that is carried out. -/
def Status.performed : List Status :=
  [ok, wrongParam, alreadyRegistered, entryNotFound, alreadyLocked, notLocked, wrongSession]

namespace Wire.Message

/-- The number in front of a record, where the action stands. -/
def actionNumber (m : Message) : UInt16 := Layout.u16.readAt 0 m.payload

/-- Whether there is an objection to a message. Of a code without a command nothing else
can be said. -/
def raises (m : Message) (o : Objection) : Bool :=
  match Command.ofCode? m.code with
  | none => o == .unknownCode
  | some command =>
    match o with
    | .unknownCode => false
    | .wrongSize => m.payload.length != command.recordSize
    | .unknownAction => command.hasAction && (Action.ofNumber? m.actionNumber).isNone
    | .unreadable => command.rejects m.payload
    | .eventOnly => command.isEvent
    | .unsupported =>
      command.hasAction && (Action.ofNumber? m.actionNumber).any fun action => !command.actions.contains action

/-- The first objection to a message. -/
def objection? (m : Message) : Option Objection := Objection.inOrder.find? m.raises

variable {m : Message} {command : Command} {action : Action}

theorem action?_eq (h : 2 ≤ m.payload.length) : m.action? = some m.actionNumber := by
  match hp : m.payload with
  | [] | [_] => simp [hp] at h
  | a :: b :: rest => simp only [action?, actionNumber, Layout.readAt, hp]; rfl

/-- The first objection to a message of a known code. -/
theorem objection?_eq (hc : Command.ofCode? m.code = some command) :
    m.objection? =
      if m.payload.length ≠ command.recordSize then some .wrongSize
      else if command.hasAction = true ∧ Action.ofNumber? m.actionNumber = none then some .unknownAction
      else if command.rejects m.payload = true then some .unreadable
      else if command.isEvent = true then some .eventOnly
      else if command.hasAction = true ∧
          ∃ action, Action.ofNumber? m.actionNumber = some action ∧ action ∉ command.actions then
        some .unsupported
      else none := by
  have first : ∀ o os, List.find? m.raises (o :: os) = if m.raises o = true then some o else os.find? m.raises := by
    intro o os
    rw [List.find?_cons]
    cases m.raises o <;> rfl
  simp only [objection?, Objection.inOrder, first, List.find?_nil, raises, hc, Bool.false_eq_true, if_false,
    bne_iff_ne, Bool.and_eq_true, Option.isNone_iff_eq_none, Option.any_eq_true, Bool.not_eq_true',
    List.contains_eq_mem, decide_eq_false_iff_not]

theorem objection?_of_unknown (hc : Command.ofCode? m.code = none) : m.objection? = some .unknownCode := by
  simp only [objection?, Objection.inOrder, List.find?_cons, raises, hc]
  rfl

/-- A message of the right size with a known action carries what is read of it. -/
theorem carries_of_read {r : Record} (hk : m.kind = .command) (hc : Command.ofCode? m.code = some command)
    (size : m.payload.length = command.recordSize)
    (known : ¬ (command.hasAction = true ∧ Action.ofNumber? m.actionNumber = none))
    (read : Record.ofPayload command m.payload = .ok r) :
    m.Carries command (if command.hasAction then Action.ofNumber? m.actionNumber else none) r := by
  refine ⟨hk, (Command.code_of_ofCode? hc).symm, ?_⟩
  rw [decode_eq hc, if_neg (not_not_intro size), read]
  cases ha : command.hasAction with
  | false => rfl
  | true =>
    obtain ⟨action, number⟩ := Option.ne_none_iff_exists'.1 fun none => known ⟨ha, none⟩
    have room : 2 ≤ m.payload.length := size ▸ two_le_recordSize ha
    simp only [Except.map, if_true, action?_eq room, number, Option.map_some, Action.number_of_ofNumber? number]

theorem carries_of_size (hk : m.kind = .command) (hc : Command.ofCode? m.code = some command)
    (size : m.payload.length = command.recordSize)
    (known : ¬ (command.hasAction = true ∧ Action.ofNumber? m.actionNumber = none))
    (accepted : command.rejects m.payload = false) :
    ∃ r, r.Belongs command ∧
      m.Carries command (if command.hasAction then Action.ofNumber? m.actionNumber else none) r := by
  obtain ⟨r, belongs, read⟩ := Record.ofPayload_of_size size accepted
  exact ⟨r, belongs, carries_of_read hk hc size known read⟩

end Wire.Message

namespace Engine

open Wire (Message)

variable {e : Engine} {client : ClientId} {m : Message} {now : Nat} {command : Command} {o : Objection}

theorem requiredAction_of_unknown (size : m.payload.length = command.recordSize) (acts : command.hasAction = true)
    (unknown : Action.ofNumber? m.actionNumber = none) : requiredAction command m = .error .unknownAction := by
  rw [requiredAction, if_pos acts, Message.action?_eq (size ▸ Message.two_le_recordSize acts)]
  simp only [unknown]

theorem requiredAction_of_known (size : m.payload.length = command.recordSize)
    (known : ¬ (command.hasAction = true ∧ Action.ofNumber? m.actionNumber = none)) :
    ∃ action, requiredAction command m = .ok action := by
  cases acts : command.hasAction with
  | false => exact ⟨none, by rw [requiredAction, acts, if_neg Bool.false_ne_true]⟩
  | true =>
    obtain ⟨action, number⟩ := Option.ne_none_iff_exists'.1 fun none => known ⟨acts, none⟩
    refine ⟨some action, ?_⟩
    rw [requiredAction, if_pos acts, Message.action?_eq (size ▸ Message.two_le_recordSize acts)]
    simp only [number]

theorem perform_of_isEvent (h : command.isEvent = true) (client : ClientId) (action : Option Action)
    (r : Wire.Record) (now : Nat) : e.perform client command action r now = e.refused .unknownCommand := by
  cases command with
  | connectionChange | healthEvent => rfl
  | lockSession | unlockSession | interface | route | connection | reset | setTimeout => cases h

/-- The handlers refuse an action that is none of their command's, whoever sends it. -/
theorem perform_of_unsupported {action : Action} {r : Wire.Record} (belongs : r.Belongs command)
    (acts : command.hasAction = true) (event : command.isEvent = false) (h : action ∉ command.actions) :
    e.perform client command (some action) r now = e.refused .unknownAction := by
  cases r with
  | route =>
    rw [Wire.Record.Belongs] at belongs
    subst belongs
    cases action with
    | keepAlive | removed | update => rfl
    | register | deregister | query | queryCont => exact absurd (by decide) h
  | connection =>
    obtain rfl | rfl := belongs
    · cases action with
      | removed => rfl
      | register | deregister | keepAlive | update | query | queryCont => simp [Command.actions] at h
    · cases event
  | interface =>
    rw [Wire.Record.Belongs] at belongs
    subst belongs
    cases action with
    | register | deregister | keepAlive | removed => rfl
    | update | query | queryCont => exact absurd (by decide) h
  | idleTimeout | health =>
    rw [Wire.Record.Belongs] at belongs
    subst belongs
    cases acts
  | empty => obtain rfl | rfl | ⟨f, rfl⟩ := belongs <;> cases acts

/-- The first objection to a command is its answer, whatever the engine is like. -/
theorem execute_of_objection (hk : m.kind = .command) (h : m.objection? = some o) :
    e.execute client m now = e.refused o.status := by
  cases hc : Command.ofCode? m.code with
  | none =>
    rw [Message.objection?_of_unknown hc] at h
    cases h
    simp only [execute, hc]
    rfl
  | some command =>
    rw [Message.objection?_eq hc] at h
    split_ifs at h with size number fields event action
    · cases h
      simp only [execute, hc, if_pos size]
      rfl
    all_goals have size := Decidable.not_not.1 size
    · cases h
      simp only [execute, hc, size, ne_eq, not_true_eq_false, if_false,
        requiredAction_of_unknown size number.1 number.2]
      rfl
    · cases h
      obtain ⟨fault, read⟩ := Wire.Record.ofPayload_of_rejects size fields
      have decoded : Wire.Record.decode m = .error (.parse fault) := by
        rw [Message.decode_eq hc, if_neg (not_not_intro size), read]
        rfl
      obtain ⟨action, required⟩ := requiredAction_of_known size number
      simp only [execute, hc, size, ne_eq, not_true_eq_false, if_false, required, decoded]
      rfl
    · cases h
      obtain ⟨r, -, carries⟩ := Message.carries_of_size hk hc size number (Bool.eq_false_iff.2 fields)
      rw [execute_of_carries carries, perform_of_isEvent event]
      rfl
    · cases h
      obtain ⟨acts, a, known, other⟩ := action
      obtain ⟨r, belongs, carries⟩ := Message.carries_of_size hk hc size number (Bool.eq_false_iff.2 fields)
      rw [if_pos acts, known] at carries
      rw [execute_of_carries carries, perform_of_unsupported belongs acts (Bool.eq_false_iff.2 event) other]
      rfl

/-- A message that there is no objection to carries a command that is carried out. -/
theorem carries_of_unobjected (hk : m.kind = .command) (h : m.objection? = none) :
    ∃ command action r, m.Carries command action r ∧ command.Takes action r := by
  cases hc : Command.ofCode? m.code with
  | none =>
    rw [Message.objection?_of_unknown hc] at h
    cases h
  | some command =>
    rw [Message.objection?_eq hc] at h
    split_ifs at h with size number fields event action
    obtain ⟨r, belongs, carries⟩ :=
      Message.carries_of_size hk hc (Decidable.not_not.1 size) number (Bool.eq_false_iff.2 fields)
    refine ⟨command, _, r, carries, Command.takes_of_belongs belongs (Bool.eq_false_iff.2 event) ?_ fun a ha => ?_⟩
    · cases acts : command.hasAction with
      | false => rfl
      | true =>
        rw [if_pos rfl, ← Option.ne_none_iff_isSome]
        exact fun none => number ⟨acts, none⟩
    · refine Decidable.byContradiction fun other => ?_
      split at ha
      · next acts => exact action ⟨acts, a, ha, other⟩
      · cases ha

/-- A command message is performed, or refused whatever the engine is like. -/
theorem execute_cases (hk : m.kind = .command) :
    (∃ command action r, m.Carries command action r) ∨
      ∃ status, status ≠ .ok ∧ ∀ (e : Engine) client now, e.execute client m now = e.refused status := by
  cases ho : m.objection? with
  | none =>
    obtain ⟨command, action, r, carries, -⟩ := carries_of_unobjected hk ho
    exact .inl ⟨command, action, r, carries⟩
  | some o => exact .inr ⟨o.status, o.status_ne_ok, fun _ _ _ => execute_of_objection hk ho⟩

end Engine

end ControlPlane
