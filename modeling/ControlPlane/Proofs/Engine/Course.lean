/-
The course of a connection, from its registration to its removal.

A touch changes the flag of a connection, or what is counted of a direction, or when it was
seen last. After any touches each of these is told by the touches of its own kind
(`Touch.replay_eq`), and all else is as it was registered. What leads a command to a
connection is the orig key of its record; nothing else of the record is looked at but the
flag of an update (`dispatch_congr`).
-/
import ControlPlane.Proofs.Engine.Origin

namespace ControlPlane.Engine

open Wire (Message)

variable {e start : Engine} {event : Event} {client : ClientId} {m m' : Message} {now seq : Nat} {f : Family}
  {action : Action} {c c' : Wire.Connection} {entry : Tracked}

/-! ## Touches by kind -/

/-- The flag that a touch sets. -/
def Touch.flag? : Touch → Option Bool
  | .flagged ttlDecrement => some ttlDecrement
  | .seen _ | .packet .. => none

/-- The size of the packet of a direction that a touch counts. -/
def Touch.octets? (d : Direction) : Touch → Option UInt64
  | .packet d' octets _ => if d' = d then some octets else none
  | .seen _ | .flagged _ => none

/-- After touches the last flag stands, the packets of each direction are counted, and the
connection was seen last when a touch last showed it. -/
theorem Touch.replay_eq (touches : List Touch) (entry : Tracked) :
    replay touches entry =
      { connection :=
          { entry.connection with
            ttlDecrement := (touches.filterMap flag?).getLast?.getD entry.connection.ttlDecrement
            origTraffic := (touches.filterMap (octets? .orig)).foldl .add entry.connection.origTraffic
            replyTraffic := (touches.filterMap (octets? .reply)).foldl .add entry.connection.replyTraffic }
        created := entry.created
        seen := (touches.filterMap instant?).getLast?.getD entry.seen } := by
  induction touches generalizing entry with
  | nil => rfl
  | cons touch touches ih =>
    refine (ih (touch.on entry)).trans ?_
    cases touch with
    | seen | flagged => simp [on, flag?, octets?, instant?, List.filterMap_cons, List.getLast?_cons]
    | packet d octets now =>
      cases d <;>
        simp [on, flag?, octets?, instant?, List.filterMap_cons, List.getLast?_cons, Wire.Connection.hit]

/-- The flags that a history sets for a connection. Each is that of an update that is
answered with `Status.ok` and whose record leads to the connection. -/
def updates (e : Engine) (f : Family) (seq : Nat) (history : List Event) : List Bool :=
  (e.touches f seq history).filterMap Touch.flag?

/-! ## From the registration on -/

/-- What is registered is stored as the record says. -/
theorem get?_of_accepted (h : e.accepted? event = some (.register, c, now)) :
    ((e.step event).1.connections.get c.family).get? (e.connections.get c.family).connections.next =
      some ⟨c, now, now⟩ := by
  obtain ⟨metrics, t, added, stepped⟩ := stored_of_accepted h
  rw [stepped]
  show ((e.withConnections c.family t).connections.get c.family).get? _ = _
  rw [get_withConnections, if_pos rfl, ConnectionTable.get?_add added, if_pos rfl]

/-- What is stored later under the number of a registration is what was registered, after
all touches since. -/
theorem replay_of_accepted (h : e.accepted? event = some (.register, c, now)) {after : List Event}
    (stored : (((e.step event).1.run after).connections.get c.family).get?
      (e.connections.get c.family).connections.next = some entry) :
    entry = Touch.replay
      ((e.step event).1.touches c.family (e.connections.get c.family).connections.next after) ⟨c, now, now⟩ := by
  have born := get?_of_accepted h
  obtain ⟨old, before, replayed⟩ := replay_run after (Sequenced.le_last born) stored
  rw [born] at before
  cases before
  exact replayed

/-- What is stored was stored at every instant since its registration. -/
theorem get?_of_later {front back : List Event} (issued : seq ≤ (e.connections.get f).connections.last)
    (stored : ((e.run (front ++ back)).connections.get f).get? seq = some entry) :
    ∃ old, ((e.run front).connections.get f).get? seq = some old := by
  rw [run_append] at stored
  have grows := run_connections_grow e front f
  obtain ⟨old, before, -⟩ := replay_run back (Nat.le_trans issued grows.last_le) stored
  exact ⟨old, before⟩

/-! ## What a command looks at -/

/-- Of the records of two commands that change a connection only the family, the orig key
and the flag of an update make a difference. -/
theorem dispatch_congr (e : Engine) (client : ClientId) (now : Nat) (hc : m.connection? = some (action, c))
    (hc' : m'.connection? = some (action, c'))
    (changes : action = .update ∧ c'.ttlDecrement = c.ttlDecrement ∨ action = .keepAlive)
    (family : c'.family = c.family) (key : c'.key .orig = c.key .orig) :
    e.dispatch client m' now = e.dispatch client m now := by
  have code : m'.code = m.code := by
    have carries := Message.carries_of_connection? hc
    have carries' := Message.carries_of_connection? hc'
    rw [carries.2.1, carries'.2.1, family]
  have found (t : ConnectionTable) : t.find? c'.protocol c'.orig = t.find? c.protocol c.orig := by
    have same : FlowKey.ofTuple c'.protocol c'.orig = FlowKey.ofTuple c.protocol c.orig := key
    simp only [ConnectionTable.find?, same]
  have modified (g : Tracked → Tracked) : e.modifyFound c' g = e.modifyFound c g := by
    simp only [modifyFound, family, found]
  have handled : e.handleConnection action c' now = e.handleConnection action c now := by
    obtain ⟨rfl, flag⟩ | rfl := changes
    · show e.settled (e.updateConnection c') = e.settled (e.updateConnection c)
      rw [updateConnection, updateConnection, modified, flag]
    · show e.settled (e.keepAlive c' now) = e.settled (e.keepAlive c now)
      rw [Engine.keepAlive, Engine.keepAlive, modified]
  obtain running | stopped := Bool.eq_false_or_eq_true e.running
  · rw [dispatch_connection running hc, dispatch_connection running hc', handled, code]
  · rw [dispatch, dispatch, handle_of_not_running stopped, handle_of_not_running stopped, code]

/-! ## Main result -/

/-- **A connection stays what it was registered as.** What is stored was registered, and is
stored from then on until it goes. In all this time its number, the time of its
registration and all of its record stay, but the statistics and the flag, which is that of
the last update that reached it. Of the record of an update or a keep-alive nothing else
has an effect than the family, the orig key, and the flag of an update. -/
theorem registered_constant {config : Config} {start : Engine} (fresh : ofConfig config = .ok start) :
    (∀ history f seq entry, ((start.run history).connections.get f).get? seq = some entry →
      ∃ c, start.Registers history f seq c) ∧
      (∀ before event c now, (start.run before).accepted? event = some (.register, c, now) →
        let seq := ((start.run before).connections.get c.family).connections.next
        let born := ((start.run before).step event).1
        (born.connections.get c.family).get? seq = some ⟨c, now, now⟩ ∧
          ∀ after entry, ((born.run after).connections.get c.family).get? seq = some entry →
            entry =
                { connection :=
                    { c with
                      ttlDecrement := (born.updates c.family seq after).getLast?.getD c.ttlDecrement
                      origTraffic := entry.connection.origTraffic
                      replyTraffic := entry.connection.replyTraffic }
                  created := now
                  seen := entry.seen } ∧
              ∀ front back, after = front ++ back →
                ∃ earlier, ((born.run front).connections.get c.family).get? seq = some earlier) ∧
      ∀ (e : Engine) client now m m' action c c', m.connection? = some (action, c) →
        m'.connection? = some (action, c') →
        (action = .update ∧ c'.ttlDecrement = c.ttlDecrement ∨ action = .keepAlive) →
        c'.family = c.family → c'.key .orig = c.key .orig → e.dispatch client m' now = e.dispatch client m now := by
  refine ⟨fun history f seq entry stored => registered_of_stored fresh stored,
    fun before event c now accepted => ?_,
    fun e client now m m' action c c' => dispatch_congr e client now⟩
  intro seq born
  have first := get?_of_accepted accepted
  refine ⟨first, fun after entry stored => ⟨?_, ?_⟩⟩
  · have replayed := replay_of_accepted accepted stored
    rw [Touch.replay_eq] at replayed
    rw [replayed]
    rfl
  · rintro front back rfl
    exact get?_of_later (Sequenced.le_last first) stored

namespace Small

/-- A record that leads to a registered connection by its orig key, sets the flag, and is
otherwise another. -/
def foreign : Wire.Connection :=
  let c := connection 1000 99 98
  { c with
    orig := { c.orig with vlan := 5 }
    reply := { c.reply with source := .v4 0x0A000003 }
    directions := .replyOnly
    ttlDecrement := true
    origTraffic := ⟨9, 900⟩ }

/-- A packet, an update and a keep-alive. -/
def touching : List Event :=
  [.packet .v4 ((connection 1000 7 7).key .orig) 100 1, send (.connection .v4) .update (.connection foreign),
    .message Small.client (message (.connection .v4) .keepAlive (.connection foreign)) 2]

end Small

/-- The flag of the foreign record is taken, and nothing else of it. -/
theorem registered_constant_small :
    let before := [Small.send .route .register (.route (Small.route 7))]
    let c := Small.connection 1000 7 7
    let event := Small.send (.connection .v4) .register (.connection c)
    let born := ((Small.start.run before).step event).1
    let update (c : Wire.Connection) := Small.message (.connection .v4) .update (.connection c)
    ofConfig Small.config = .ok Small.start ∧
      (Small.start.run before).accepted? event = some (.register, c, 0) ∧
      (born.connections.get .v4).get? 1 = some ⟨c, 0, 0⟩ ∧ born.updates .v4 1 Small.touching = [true] ∧
      (∃ entry, ((born.run Small.touching).connections.get .v4).get? 1 = some entry ∧ entry.created = 0 ∧
        entry.connection =
          { c with
            ttlDecrement := true
            origTraffic := entry.connection.origTraffic
            replyTraffic := entry.connection.replyTraffic }) ∧
      born.dispatch Small.client (update Small.foreign) 0 =
        born.dispatch Small.client (update { c with ttlDecrement := true }) 0 := by
  intro before c event born update
  obtain ⟨-, course, alike⟩ := @registered_constant Small.config Small.start rfl
  have accepted : (Small.start.run before).accepted? event = some (.register, c, 0) := by decide +kernel
  have number : ((Small.start.run before).connections.get c.family).connections.next = 1 := by decide +kernel
  have flags : born.updates c.family 1 Small.touching = [true] := by decide +kernel
  obtain ⟨first, later⟩ := course before event c 0 accepted
  rw [number] at first later
  obtain ⟨entry, stored⟩ : ∃ entry, ((born.run Small.touching).connections.get c.family).get? 1 = some entry :=
    Option.isSome_iff_exists.1 (by decide +kernel)
  obtain ⟨constant, -⟩ := later Small.touching entry stored
  rw [flags] at constant
  refine ⟨rfl, accepted, first, flags, ⟨entry, stored, ?_, ?_⟩, ?_⟩
  · rw [constant]
  · rw [constant]
    rfl
  · exact alike born Small.client 0 _ _ .update { c with ttlDecrement := true } Small.foreign (by decide +kernel)
      (by decide +kernel) (.inl ⟨rfl, rfl⟩) rfl rfl

end ControlPlane.Engine
