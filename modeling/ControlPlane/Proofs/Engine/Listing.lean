/-
What can be listed, and what one question for it comes to.

Routes, the connections of each family and interfaces are listed in one way
(`Engine.list`): the table is read as records by number, and the answer is the
entry ahead of the cursor. The three handlers do just that
(`perform_of_asks`).
-/
import ControlPlane.Proofs.Engine.Edit
import ControlPlane.Proofs.Engine.Message
import ControlPlane.Proofs.Store.Sequenced

namespace ControlPlane

/-- Whether an action asks for a listing. -/
def Action.lists : Action → Bool
  | query | queryCont => true
  | register | deregister | keepAlive | removed | update => false

/-- What can be listed; each kind has a cursor of its own. -/
inductive Resource where
  | routes
  | connections (f : Family)
  | interfaces
  deriving DecidableEq, Repr

namespace Resource

/-- The command whose records are listed. -/
def command : Resource → Command
  | routes => .route
  | connections f => .connection f
  | interfaces => .interface

def ofCommand? : Command → Option Resource
  | .route => some routes
  | .connection f => some (connections f)
  | .interface => some interfaces
  | .lockSession | .unlockSession | .connectionChange _ | .reset _ | .setTimeout | .healthEvent => none

theorem ofCommand?_eq_some_iff {command : Command} {r : Resource} :
    ofCommand? command = some r ↔ command = r.command := by
  cases command <;> cases r <;> simp [ofCommand?, Resource.command, eq_comm]

end Resource

namespace Cursor

variable {α β : Type}

/-- The entry that a question gets: the first of all at the start, then the first
behind the cursor. -/
def ahead? (c : Cursor) (start : Bool) (table : SortedMap Nat α) : Option (Nat × α) :=
  if start then table.first? else c.last?.bind table.after?

theorem ahead?_map (c : Cursor) (start : Bool) (table : SortedMap Nat α) (f : α → β) :
    c.ahead? start (table.map f) = (c.ahead? start table).map fun e => (e.1, f e.2) := by
  unfold ahead?
  split
  · rw [SortedMap.first?_map]
  · cases c with
    | idle => rfl
    | behind last => exact SortedMap.after?_map f table last

end Cursor

namespace Wire

theorem Connection.family_of_decode {f : Family} {bs : Bytes} {c : Connection} (h : decode f bs = .ok c) :
    c.family = f := by
  simp only [decode] at h
  split at h
  · cases h
  · split at h
    · cases h
    · cases h
      rfl

namespace Message

/-- The listing that a message asks for, and with which action. -/
def asks? (m : Message) : Option (Resource × Action) :=
  match m.kind, Command.ofCode? m.code, Record.decode m with
  | .command, some command, .ok (some n, _) =>
    match Resource.ofCommand? command, Action.ofNumber? n with
    | some r, some action => if action.lists then some (r, action) else none
    | _, _ => none
  | _, _, _ => none

variable {m : Message} {r : Resource} {command : Command} {action : Action} {record : Record}

/-- What a message asks for is what it carries. -/
theorem Carries.asks?_eq {action : Option Action} (h : m.Carries command action record) :
    m.asks? =
      (Resource.ofCommand? command).bind fun r =>
        (action.filter Action.lists).map fun action => (r, action) := by
  rw [asks?, h.1, h.command_eq, h.2.2]
  cases action with
  | none => cases Resource.ofCommand? command <;> rfl
  | some action =>
    simp only [Option.map_some, Action.ofNumber?_number]
    cases Resource.ofCommand? command with
    | none => rfl
    | some r => cases hl : action.lists <;> simp [Option.filter, hl]

theorem Carries.lists_eq_false {action : Option Action} (h : m.Carries command action record)
    (hn : m.asks? = none) :
    ∀ r a, Resource.ofCommand? command = some r → action = some a → a.lists = false := by
  rintro r a hr rfl
  rw [h.asks?_eq] at hn
  cases hl : a.lists with
  | false => rfl
  | true => simp [hr, Option.filter, hl] at hn

theorem asks?_eq_some (h : m.asks? = some (r, action)) :
    action.lists = true ∧ ∃ record, m.Carries r.command (some action) record := by
  unfold asks? at h
  split at h
  · next command n record hk hc hd =>
    split at h
    · next hr ha =>
      split at h
      · next hl =>
        cases h
        obtain rfl := Resource.ofCommand?_eq_some_iff.1 hr
        refine ⟨hl, record, hk, (Command.code_of_ofCode? hc).symm, ?_⟩
        rw [hd, Option.map_some, Action.number_of_ofNumber? ha]
      · cases h
    · cases h
  · cases h

end Message

end Wire

namespace Engine

variable {e : Engine} {client : ClientId} {now : Nat} {m : Wire.Message} {action : Action}

/-- Where the listing of a kind of resource stands. -/
def cursor (e : Engine) : Resource → Cursor
  | .routes => e.cursors.routes
  | .connections f => e.cursors.connections.get f
  | .interfaces => e.cursors.interfaces

/-- The engine with a listing standing elsewhere. -/
def withCursor (e : Engine) (r : Resource) (c : Cursor) : Engine :=
  match r with
  | .routes => { e with cursors := { e.cursors with routes := c } }
  | .connections f => { e with cursors := { e.cursors with connections := e.cursors.connections.set f c } }
  | .interfaces => { e with cursors := { e.cursors with interfaces := c } }

/-- The records of a table, as they are answered to an action. -/
def records (e : Engine) (r : Resource) (action : Action) : Sequenced Bytes :=
  match r with
  | .routes => e.routes.routes.map (·.toWire.encode action)
  | .connections f => (e.connections.get f).connections.map (·.connection.encode action)
  | .interfaces => e.interfaces.interfaces.map (·.encode action)

/-- The numbers of the entries of a table. -/
def numbers (e : Engine) (r : Resource) : List Nat := (e.records r .query).numbers

@[simp] theorem numbers_records (e : Engine) (r : Resource) (action : Action) :
    (e.records r action).numbers = e.numbers r := by
  cases r <;> simp [numbers, records]

@[simp] theorem last_records (e : Engine) (r : Resource) (action : Action) :
    (e.records r action).last = (e.records r .query).last := by
  cases r <;> rfl

/-- The answer to a question: the entry ahead of the cursor, which then stands
behind it. With none ahead the listing is over. -/
def list (e : Engine) (r : Resource) (action : Action) : Outcome :=
  match (e.cursor r).ahead? (action == .query) (e.records r action).table with
  | some (seq, record) => ⟨e.withCursor r (.behind seq), ⟨.ok, record⟩, []⟩
  | none => (e.withCursor r .idle).refused .entryNotFound

@[simp] theorem cursor_withCursor (e : Engine) (r : Resource) (c : Cursor) (r' : Resource) :
    (e.withCursor r c).cursor r' = if r' = r then c else e.cursor r' := by
  cases r <;> cases r' <;> simp [withCursor, cursor, PerFamily.get_set]

theorem cursor_of_cursors {e e' : Engine} (h : e'.cursors = e.cursors) (r : Resource) :
    e'.cursor r = e.cursor r := by
  cases r <;> simp [cursor, h]

/-- Only the cursor of what is listed moves. -/
theorem list_engine (e : Engine) (r : Resource) (action : Action) :
    ∃ c, (e.list r action).engine = e.withCursor r c := by
  unfold list
  split
  · exact ⟨_, rfl⟩
  · exact ⟨_, rfl⟩

theorem status_list (e : Engine) (r : Resource) (action : Action) :
    (e.list r action).reply.status = .ok ∨ (e.list r action).reply.status = .entryNotFound := by
  unfold list
  split
  · exact .inl rfl
  · exact .inr rfl

theorem listed_eq {α : Type} (table : SortedMap Nat α) (cursor : Cursor) (put : Cursor → Engine)
    (start : Bool) (encode : α → Bytes) :
    listed table cursor put start encode =
      match cursor.ahead? start (table.map encode) with
      | some (seq, record) => ⟨put (.behind seq), ⟨.ok, record⟩, []⟩
      | none => (put .idle).refused .entryNotFound := by
  rw [Cursor.ahead?_map]
  cases start with
  | true =>
    simp only [listed, Cursor.ahead?, Cursor.first, if_pos]
    cases table.first? <;> rfl
  | false =>
    cases cursor with
    | idle => rfl
    | behind last =>
      simp only [listed, Cursor.ahead?, Cursor.next, Cursor.last?, Option.bind_some]
      cases table.after? last <;> rfl

theorem handleRoute_list (e : Engine) (client : ClientId) (r : Wire.Route) (h : action.lists = true) :
    e.handleRoute client action r = e.list .routes action := by
  cases action with
  | query | queryCont => exact listed_eq ..
  | _ => cases h

theorem handleConnection_list (e : Engine) (c : Wire.Connection) (now : Nat) (h : action.lists = true) :
    e.handleConnection action c now = e.list (.connections c.family) action := by
  cases action with
  | query | queryCont => exact listed_eq ..
  | _ => cases h

theorem handleInterface_list (e : Engine) (client : ClientId) (i : Interface) (h : action.lists = true) :
    e.handleInterface client action i = e.list .interfaces action := by
  cases action with
  | query | queryCont => exact listed_eq ..
  | _ => cases h

/-- A message that asks for a listing gets its next entry. -/
theorem perform_of_asks {r : Resource} {record : Wire.Record} (hl : action.lists = true)
    (h : m.Carries r.command (some action) record) :
    e.perform client r.command (some action) record now = e.list r action := by
  have hp := h.ofPayload_eq
  cases r with
  | routes =>
    obtain ⟨w, -, rfl⟩ := map_eq_ok_iff.1 hp
    exact handleRoute_list e client w hl
  | connections f =>
    obtain ⟨c, hc, rfl⟩ := map_eq_ok_iff.1 hp
    rw [← Wire.Connection.family_of_decode hc]
    exact handleConnection_list e c now hl
  | interfaces =>
    obtain ⟨i, -, rfl⟩ := map_eq_ok_iff.1 hp
    exact handleInterface_list e client i hl

end Engine

end ControlPlane
