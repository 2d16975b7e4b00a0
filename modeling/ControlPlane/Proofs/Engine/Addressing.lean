/-
Which connection a command reaches.

A command about a connection that is stored is never refused, and reaches a connection
of the same orig key (`step_actsOn`). That is the one which was registered with the
command's record when it forwards the orig direction. One that does not may stand behind
an older one, or behind one that does (`record_addresses`).
-/
import ControlPlane.Proofs.Engine.Origin
import ControlPlane.Proofs.Tracking.Addressing

namespace ControlPlane

/-- The actions that are about one stored connection. -/
def Action.addresses : Action → Bool
  | deregister | update | keepAlive => true
  | register | removed | query | queryCont => false

/-- What an action makes of the connection that it reaches; none when it takes it
away. -/
def Tracked.after? (entry : Tracked) (action : Action) (c : Wire.Connection) (now : Nat) : Option Tracked :=
  match action with
  | .deregister => none
  | .update => some { entry with connection := { entry.connection with ttlDecrement := c.ttlDecrement } }
  | .keepAlive => some { entry with seen := now }
  | .register | .removed | .query | .queryCont => some entry

namespace Engine

open Wire (Message)

variable {e : Engine} {event : Event} {client : ClientId} {m : Message} {now seq : Nat} {f : Family}
  {action : Action} {c : Wire.Connection} {entry : Tracked} {history : List Event}

/-- An event is answered with `Status.ok`, brings no events, and changes one stored
connection or takes it away. What is beside the family's table stays, but what is
counted. -/
def ActsOn (e : Engine) (event : Event) (f : Family) (seq : Nat) (change : Tracked → Option Tracked) : Prop :=
  ∃ t metrics,
    e.step event =
      ({ e.withConnections f t with metrics },
        .replied (Wire.Reply.ok.toMessage (Command.connection f).code) []) ∧
      t.connections.entries = (e.connections.get f).connections.amended seq change

theorem modifyFound_of_find? (stored : (e.connections.get c.family).get? seq = some entry)
    (found : (e.connections.get c.family).find? c.protocol c.orig = some seq) (g : Tracked → Tracked) :
    e.modifyFound c g = .ok (e.withConnections c.family ((e.connections.get c.family).modify seq g)) := by
  simp only [modifyFound, found, stored]

theorem removeConnection_of_find? (stored : (e.connections.get c.family).get? seq = some entry)
    (found : (e.connections.get c.family).find? c.protocol c.orig = some seq) :
    e.removeConnection c = .ok (e.withConnections c.family ((e.connections.get c.family).remove seq).2) := by
  simp only [removeConnection, found, ConnectionTable.remove, stored]

/-- A command about a stored connection is not refused. -/
theorem handleConnection_found (stored : (e.connections.get c.family).get? seq = some entry)
    (found : (e.connections.get c.family).find? c.protocol c.orig = some seq) (ha : action.addresses = true) :
    ∃ t, e.handleConnection action c now = ⟨e.withConnections c.family t, .ok, []⟩ ∧
      t.connections.entries =
        (e.connections.get c.family).connections.amended seq fun entry => entry.after? action c now := by
  cases action with
  | deregister =>
    refine ⟨((e.connections.get c.family).remove seq).2, ?_, ?_⟩
    · show e.settled (e.removeConnection c) = _
      rw [removeConnection_of_find? stored found]
      rfl
    · rw [ConnectionTable.connections_remove]
      exact Sequenced.entries_erase_eq ..
  | update =>
    refine ⟨(e.connections.get c.family).modify seq _, ?_, Sequenced.entries_modify_eq ..⟩
    show e.settled (e.updateConnection c) = _
    rw [updateConnection, modifyFound_of_find? stored found]
    rfl
  | keepAlive =>
    refine ⟨(e.connections.get c.family).modify seq _, ?_, Sequenced.entries_modify_eq ..⟩
    show e.settled (e.keepAlive c now) = _
    rw [Engine.keepAlive, modifyFound_of_find? stored found]
    rfl
  | register | removed | query | queryCont => cases ha

theorem step_actsOn (running : e.running = true) (hm : event.message? = some (client, m, now))
    (hc : m.Carries (.connection f) (some action) (.connection c)) (ha : action.addresses = true)
    (stored : (e.connections.get f).get? seq = some entry)
    (found : (e.connections.get f).find? c.protocol c.orig = some seq) :
    e.ActsOn event f seq fun entry => entry.after? action c now := by
  have about := hc.connection?_eq
  obtain ⟨family, -, -⟩ := hc.unique (Message.carries_of_connection? about)
  cases family
  obtain ⟨t, handled, entries⟩ := handleConnection_found stored found ha
  have stepped := step_of_message (e := e) hm
  rw [dispatch_connection running about, handled, hc.2.1] at stepped
  exact ⟨t, _, stepped, entries⟩

/-- A record that was registered leads where the connection's own orig key does. -/
theorem Registers.find?_eq {start : Engine} (hr : start.Registers history f seq c)
    (stored : ((start.run history).connections.get f).get? seq = some entry) (t : ConnectionTable) :
    t.find? c.protocol c.orig = t.find? entry.connection.protocol entry.connection.orig := by
  obtain ⟨now, same⟩ := hr.identity stored
  have protocol : entry.connection.protocol = c.protocol := congrArg (fun x => x.connection.protocol) same
  have orig : entry.connection.orig = c.orig := Tracked.tuple_of_identity same .orig
  rw [protocol, orig]

/-- A registration that is taken back at once leaves the connections as they were just
when its record leads to it. -/
theorem entries_taken_back {registering dropping : Event} {now' : Nat} (flows : (e.connections.get c.family).Exact)
    (accepted : e.accepted? registering = some (.register, c, now))
    (hm : dropping.message? = some (client, m, now'))
    (hc : m.Carries (.connection c.family) (some .deregister) (.connection c)) :
    (∀ f, ((e.run [registering, dropping]).connections.get f).connections.entries =
        (e.connections.get f).connections.entries) ↔
      c.forwards .orig = true ∨
        ∀ seq entry, (e.connections.get c.family).get? seq = some entry →
          entry.connection.key .orig ≠ c.key .orig := by
  obtain ⟨-, -, -, running, -, -⟩ := accepted?_eq_some accepted
  obtain ⟨metrics, t, added, stepped⟩ := stored_of_accepted accepted
  have table : (e.step registering).1.connections.get c.family = t := by
    rw [stepped]
    show (e.withConnections c.family t).connections.get c.family = t
    rw [get_withConnections, if_pos rfl]
  have last : t.get? (e.connections.get c.family).connections.next = some ⟨c, now, now⟩ := by
    rw [ConnectionTable.get?_add added, if_pos rfl]
  obtain ⟨n, found⟩ : ∃ n, t.find? c.protocol c.orig = some n := ConnectionTable.find?_of_stored last rfl
  obtain ⟨entry, stored, -⟩ := (flows.add added).find?_eq_some_iff.1 found
  have still : (e.step registering).1.running = true := by rw [stepped]; exact running
  obtain ⟨t', metrics', stepped', entries⟩ :=
    step_actsOn still hm hc rfl (by rw [table]; exact stored) (by rw [table]; exact found)
  rw [table] at entries
  have taken : t'.connections.entries = (t.remove n).2.connections.entries := by
    rw [entries, ConnectionTable.connections_remove, Sequenced.entries_erase_eq]
    rfl
  have after : (e.run [registering, dropping]).connections = (e.connections.set c.family t).set c.family t' := by
    rw [run_cons, run_cons, run_nil, stepped', stepped]
    rfl
  rw [← ConnectionTable.find?_of_add flows added, found, Option.some.injEq,
    ← ConnectionTable.entries_remove_add added stored, ← taken, after, PerFamily.set_set]
  constructor
  · intro same
    have here := same c.family
    rwa [PerFamily.get_set, if_pos rfl] at here
  · intro same f
    rw [PerFamily.get_set]
    split
    · next hf => rw [hf, same]
    · rfl

/-! ## Main result -/

/-- **What a registered record addresses.** In a run from a configuration every stored
connection was registered with a record, and a command to drop it, flag it or keep it
alive with that record is answered with `Status.ok` and acts on one connection of the
same orig key: on the one that forwards it, or else on the oldest. So it acts on the
connection itself just when that forwards the orig direction, or no other does and none
is older. A registration that is taken back at once leaves the connections as they were
just when its orig direction is forwarded or nothing else had its orig key. -/
theorem record_addresses {config : Config} {start : Engine} {history : List Event}
    (hs : ofConfig config = .ok start) (running : (start.run history).running = true) :
    let e := start.run history
    (∀ f seq entry, (e.connections.get f).get? seq = some entry →
      (∃ c, start.Registers history f seq c) ∧
        ∃ found, (e.connections.get f).Leads (entry.connection.key .orig) found ∧
          (e.connections.get f).find? entry.connection.protocol entry.connection.orig = some found ∧
          (found = seq ↔ entry.connection.forwards .orig = true ∨
            ∀ n other, (e.connections.get f).get? n = some other →
              other.connection.key .orig = entry.connection.key .orig →
                other.connection.forwards .orig = false ∧ seq ≤ n) ∧
          ∀ c action event client m now, start.Registers history f seq c → action.addresses = true →
            event.message? = some (client, m, now) →
            m.Carries (.connection f) (some action) (.connection c) →
              e.ActsOn event f found fun other => other.after? action c now) ∧
      ∀ registering dropping c now client m now', e.accepted? registering = some (.register, c, now) →
        dropping.message? = some (client, m, now') →
        m.Carries (.connection c.family) (some .deregister) (.connection c) →
          ((∀ f, ((e.run [registering, dropping]).connections.get f).connections.entries =
              (e.connections.get f).connections.entries) ↔
            c.forwards .orig = true ∨
              ∀ seq entry, (e.connections.get c.family).get? seq = some entry →
                entry.connection.key .orig ≠ c.key .orig) := by
  intro e
  have sound : e.Sound := (Reachable.start hs).run history |>.sound
  refine ⟨fun f seq entry stored => ⟨registered_of_stored hs stored, ?_⟩, ?_⟩
  · have exact := sound.flows f
    obtain ⟨found, reached⟩ : ∃ found,
        (e.connections.get f).find? entry.connection.protocol entry.connection.orig = some found :=
      ConnectionTable.find?_of_stored stored rfl
    have leads := exact.find?_eq_some_iff.1 reached
    refine ⟨found, leads, reached, ?_, ?_⟩
    · rw [← ConnectionTable.leads_iff_of_stored stored, ← Option.some.injEq, ← reached]
      exact exact.find?_eq_some_iff
    · intro c action event client m now hr ha hm hc
      obtain ⟨target, there, -⟩ := leads
      exact step_actsOn running hm hc ha there ((hr.find?_eq stored _).trans reached)
  · intro registering dropping c now client m now' accepted hm hc
    exact entries_taken_back (sound.flows c.family) accepted hm hc

namespace Small

/-- A connection that is forwarded back only, to a port of its own. -/
def backward (port : UInt16) : Wire.Connection :=
  let c := connection 2000 0 7
  { c with directions := .replyOnly, reply := { c.reply with destinationPort := port } }

/-- A route, and two connections of one orig key. -/
def twins : List Event :=
  [send .route .register (.route (route 7)),
    send (.connection .v4) .register (.connection (backward 2000)),
    send (.connection .v4) .register (.connection (backward 2001))]

/-- A command about a connection with its record. -/
def about (action : Action) (c : Wire.Connection) : Event := send (.connection .v4) action (.connection c)

theorem registers_younger : start.Registers twins .v4 2 (backward 2001) :=
  ⟨twins.take 2, about .register (backward 2001), [], 0, rfl, by decide +kernel, rfl, by decide +kernel⟩

end Small

/-- The record of the younger of two connections that do not forward their common orig
key leads to the older one, which is dropped in its place. -/
theorem younger_not_addressed :
    let before := Small.start.run (Small.twins.take 2)
    let e := Small.start.run Small.twins
    e.Reachable ∧ e.running = true ∧ Small.start.Registers Small.twins .v4 2 (Small.backward 2001) ∧
      (before.connections.get .v4).connections.numbers = [1] ∧
      (e.connections.get .v4).connections.numbers = [1, 2] ∧
      (e.connections.get .v4).find? 6 (Small.backward 2001).orig = some 1 ∧
      (e.step (Small.about .deregister (Small.backward 2001))).2 =
        .replied (Wire.Reply.ok.toMessage (Command.connection .v4).code) [] ∧
      ((e.step (Small.about .deregister (Small.backward 2001))).1.connections.get .v4).connections.numbers = [2] := by
  intro before e
  refine ⟨⟨Small.config, Small.start, Small.twins, rfl, rfl⟩, by decide +kernel, Small.registers_younger,
    by decide +kernel, by decide +kernel, by decide +kernel, rfl, by decide +kernel⟩

/-- The record of the younger reaches the older; a connection that forwards both
directions can be taken back. -/
theorem record_addresses_small :
    let e := Small.start.run Small.twins
    ofConfig Small.config = .ok Small.start ∧ e.running = true ∧
      (e.ActsOn (Small.about .keepAlive (Small.backward 2001)) .v4 1 fun entry =>
        entry.after? .keepAlive (Small.backward 2001) 0) ∧
      ∀ f, ((e.run [Small.about .register (Small.connection 1000 7 7),
          Small.about .deregister (Small.connection 1000 7 7)]).connections.get f).connections.entries =
        (e.connections.get f).connections.entries := by
  intro e
  have running : e.running = true := by decide +kernel
  obtain ⟨stored, restored⟩ := @record_addresses Small.config Small.start Small.twins rfl running
  refine ⟨rfl, running, ?_, ?_⟩
  · have younger : (e.connections.get .v4).get? 2 = some ⟨Small.backward 2001, 0, 0⟩ := by decide +kernel
    obtain ⟨-, found, -, reached, -, acts⟩ := stored .v4 2 _ younger
    have older : (e.connections.get .v4).find? 6 (Small.backward 2001).orig = some 1 := by decide +kernel
    obtain rfl : found = 1 := Option.some.inj (reached.symm.trans older)
    exact acts _ .keepAlive _ Small.client _ 0 Small.registers_younger rfl rfl ⟨rfl, rfl, by decide +kernel⟩
  · have accepted : e.accepted? (Small.about .register (Small.connection 1000 7 7)) =
        some (.register, Small.connection 1000 7 7, 0) := by decide +kernel
    exact (restored _ _ _ _ Small.client _ 0 accepted rfl ⟨rfl, rfl, by decide +kernel⟩).2 (.inl rfl)

end Engine

end ControlPlane
