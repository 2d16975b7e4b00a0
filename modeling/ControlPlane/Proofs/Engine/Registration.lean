/-
Which records are registered.

A record is judged by what is stored, connection by connection and route by route
(`verdict`): it must have a route of its family for each direction that it forwards, tell
its two directions apart, and share no key with a direction that is forwarded already,
in whichever direction. The engine judges by its indices and so comes to the same
(`Sound.addConnection_cases`). What is registered stands behind all others, under a number
that no connection of the family had before (`registration_judged`).
-/
import ControlPlane.Proofs.Engine.Enumeration
import ControlPlane.Proofs.Engine.Event
import ControlPlane.Proofs.Engine.Integrity
import ControlPlane.Proofs.Wire.RoundTrip

namespace ControlPlane

/-- A record that forwards both directions under one key. -/
def Wire.Connection.Ambiguous (c : Wire.Connection) : Prop :=
  (∀ d, c.forwards d = true) ∧ c.key .orig = c.key .reply

instance (c : Wire.Connection) : Decidable c.Ambiguous :=
  inferInstanceAs (Decidable ((∀ d, c.forwards d = true) ∧ c.key .orig = c.key .reply))

theorem ConnectionTable.collides_iff {c : Wire.Connection} : collides c = true ↔ c.Ambiguous := by
  rw [Wire.Connection.Ambiguous, Direction.forall_iff]
  cases h : c.directions <;>
    simp [collides, Wire.Connection.forwards, Wire.Directions.hasOrig, Wire.Directions.hasReply, h]

namespace Engine

open Wire (Message)

variable {e e' : Engine} {c : Wire.Connection} {event : Event} {client : ClientId} {m : Message} {now : Nat}

/-! ## The verdict -/

/-- A direction is forwarded through no stored route of the record's family. -/
def Unroutable (e : Engine) (c : Wire.Connection) : Prop :=
  ∃ d, c.forwards d = true ∧ ¬ ∃ r ∈ e.routes.routes.values, r.id = (c.tuple d).routeId ∧ r.family = c.family

/-- A direction is forwarded under a key that a stored connection of the family forwards. -/
def Taken (e : Engine) (c : Wire.Connection) : Prop :=
  ∃ d, c.forwards d = true ∧ (e.connections.get c.family).Forwards (c.key d)

instance (e : Engine) (c : Wire.Connection) : Decidable (e.Unroutable c) :=
  inferInstanceAs (Decidable (∃ d, c.forwards d = true ∧
    ¬ ∃ r ∈ e.routes.routes.values, r.id = (c.tuple d).routeId ∧ r.family = c.family))

instance (e : Engine) (c : Wire.Connection) : Decidable (e.Taken c) :=
  inferInstanceAs (Decidable (∃ d, c.forwards d = true ∧ (e.connections.get c.family).Forwards (c.key d)))

/-- What becomes of a record, by looking through all routes and connections. -/
def verdict (e : Engine) (c : Wire.Connection) : Status :=
  if e.Unroutable c ∨ c.Ambiguous then .wrongParam else if e.Taken c then .alreadyRegistered else .ok

theorem Sound.routable_iff (h : e.Sound) :
    (c.forwarded.all fun d => e.routeServes c.family (c.tuple d).routeId) = true ↔ ¬ e.Unroutable c := by
  rw [List.all_eq_true, Unroutable, not_exists]
  simp only [Wire.Connection.mem_forwarded, routeServes_iff, h.ids.get?_eq_some_iff, not_and, not_not, and_assoc]

theorem Sound.taken_iff (h : e.Sound) :
    (c.forwarded.any fun d => (e.connections.get c.family).flows.contains (c.key d)) = true ↔ e.Taken c := by
  simp only [List.any_eq_true, Wire.Connection.mem_forwarded, (h.flows _).contains_iff, Taken]

/-- Every table is of its family. -/
theorem Reachable.family_eq (h : e.Reachable) (f : Family) : (e.connections.get f).family = f := by
  refine h.keeps (P := fun e => ∀ f, (e.connections.get f).family = f) ?_ ?_ f
  · intro config e start f
    obtain ⟨_, -, rfl⟩ := ofConfig_eq_ok start
    cases f <;> rfl
  · intro e e' change own f
    cases change with
    | beside _ connections _ => rw [connections, own]
    | edit edit =>
      cases edit with
      | note _ | addRoute _ _ _ | removeRoute _ | hitRoute _ | setFlags _ => exact own f
      | addConnection _ added =>
        obtain ⟨-, -, -, -, rfl⟩ := ConnectionTable.add_eq_ok_iff.1 added
        rw [get_withConnections]
        split
        · next same => exact same ▸ own _
        · exact own f
      | removeConnection g n =>
        rw [get_withConnections]
        split
        · next same => rw [ConnectionTable.family_remove, own, same]
        · exact own f
      | editConnection g n _ | clearConnections g =>
        rw [get_withConnections]
        split
        · next same => exact same ▸ own _
        · exact own f

/-- A record is registered or refused as the verdict says. -/
theorem Sound.addConnection_cases (h : e.Sound) (own : (e.connections.get c.family).family = c.family) (now : Nat) :
    (e.verdict c ≠ .ok ∧ e.addConnection c now = .error (e.verdict c)) ∨
      e.verdict c = .ok ∧ ∃ t,
        (e.connections.get c.family).add c now = .ok ((e.connections.get c.family).connections.next, t) ∧
          e.addConnection c now = .ok (e.withConnections c.family t) := by
  rw [verdict, addConnection, ConnectionTable.add]
  simp only [h.routable_iff, own, ConnectionTable.collides_iff, h.taken_iff, ne_eq, not_true_eq_false, if_false]
  by_cases unroutable : e.Unroutable c
  · simp [unroutable]
  · by_cases ambiguous : c.Ambiguous
    · simp [unroutable, ambiguous, Except.map]
    · by_cases taken : e.Taken c
      · simp [unroutable, ambiguous, taken, Except.map]
      · simp [unroutable, ambiguous, taken, Except.map]

/-! ## Registrations -/

/-- A client asks for a record to be registered. -/
def Submits (event : Event) (c : Wire.Connection) (now : Nat) : Prop :=
  ∃ client m, event.message? = some (client, m, now) ∧
    m.Carries (.connection c.family) (some .register) (.connection c)

/-- A record that its fields have room for is submitted by the message that it is written to. -/
theorem submits_written (canonical : (Wire.Record.connection c).Canonical) (client : ClientId) (now : Nat) :
    Submits (.message client
      ⟨.command, (Command.connection c.family).code, (Wire.Record.connection c).payload .register⟩ now) c now := by
  refine ⟨client, _, rfl, rfl, rfl, ?_⟩
  exact Wire.Record.decode_of_belongs (.inl rfl) canonical

/-- The answer to a registration. -/
def judged (c : Wire.Connection) (status : Status) : Answer :=
  .replied ((Wire.Reply.ofStatus status).toMessage (Command.connection c.family).code) []

theorem step_submits (running : e.running = true) (sent : Submits event c now) :
    ∃ metrics, e.step event =
      match e.addConnection c now with
      | .ok e' => ({ e' with metrics }, judged c .ok)
      | .error status => ({ e with metrics }, judged c status) := by
  obtain ⟨client, m, message, carries⟩ := sent
  rw [step_of_message message, dispatch_of_carries running carries]
  simp only [perform, handleConnection, settled, carries.2.1]
  cases e.addConnection c now <;> exact ⟨_, rfl⟩

/-- An engine and what it comes to when a record is stored, under a number, behind all
others of its family. -/
structure Stores (e : Engine) (c : Wire.Connection) (now seq : Nat) (e' : Engine) : Prop where
  entries : (e'.connections.get c.family).connections.entries =
    (e.connections.get c.family).connections.entries ++ [(seq, ⟨c, now, now⟩)]
  flows : ∀ k n d, (e'.connections.get c.family).flows.get? k = some (n, d) ↔
    (e.connections.get c.family).flows.get? k = some (n, d) ∨ n = seq ∧ c.forwards d = true ∧ c.key d = k
  other : ∀ f, f ≠ c.family → e'.connections.get f = e.connections.get f
  rest : e' = { e with connections := e'.connections, metrics := e'.metrics }

theorem Sound.stores (h : e.Sound) {seq : Nat} {t : ConnectionTable}
    (added : (e.connections.get c.family).add c now = .ok (seq, t)) (metrics : Metrics) :
    Stores e c now seq { e.withConnections c.family t with metrics } := by
  have own : (e.withConnections c.family t).connections.get c.family = t := by
    rw [get_withConnections, if_pos rfl]
  constructor
  case entries =>
    obtain ⟨-, -, -, number, table⟩ := ConnectionTable.add_eq_ok_iff.1 added
    rw [own, table, number]
    exact Sequenced.entries_push ..
  case flows =>
    intro k n d
    rw [own]
    exact (h.flows c.family).flows_add added
  case other =>
    intro f other
    exact (get_withConnections ..).trans (if_neg other)
  case rest => rfl

/-- The number that is given out next is above all that a family's connections ever had. -/
theorem lt_next_of_stored (start : Engine) (before after : List Event) (f : Family) {n : Nat}
    (stored : n ∈ ((start.run before).connections.get f).connections.numbers) :
    n < ((start.run (before ++ after)).connections.get f).connections.next := by
  obtain ⟨entry, there⟩ := Sequenced.mem_numbers_iff.1 stored
  have grows := run_connections_grow (start.run before) after f
  rw [run_append]
  exact Nat.lt_succ_of_le (Nat.le_trans (Sequenced.le_last there) grows.last_le)

/-! ## Main result -/

/-- **Exactly the right records are registered.** A running engine answers a registration as
looking through all routes and connections says. The parameter is wrong if a forwarded
direction has no stored route of the family, or both directions are forwarded under one
key; else the record is there already if a stored connection of the family forwards, in
either direction, under a key that the record forwards; else it is registered. What is
refused changes nothing but what is counted. What is registered is stored as it was sent,
seen at that instant, behind all others and under a number above all that the family's
connections had at any time of the history; all others stay as they are. -/
theorem registration_judged {config : Config} {start : Engine} {history : List Event}
    (hs : ofConfig config = .ok start) (running : (start.run history).running = true) {event : Event}
    {c : Wire.Connection} {now : Nat} (sent : Submits event c now) :
    let e := start.run history
    let e' := (e.step event).1
    (e.step event).2 = judged c (e.verdict c) ∧
      (e.verdict c ≠ .ok → e' = { e with metrics := e'.metrics }) ∧
      (e.verdict c = .ok → ∃ seq, e.Stores c now seq e' ∧
        ∀ before after, history = before ++ after →
          ∀ n ∈ ((start.run before).connections.get c.family).connections.numbers, n < seq) := by
  intro e e'
  have reachable : e.Reachable := (Reachable.start hs).run history
  obtain ⟨metrics, step⟩ := step_submits running sent
  obtain ⟨refused, outcome⟩ | ⟨accepted, t, added, outcome⟩ :=
    reachable.sound.addConnection_cases (reachable.family_eq c.family) now
  · have turned : e.step event = ({ e with metrics }, judged c (e.verdict c)) := step.trans (by rw [outcome])
    have left : e' = { e with metrics } := congrArg Prod.fst turned
    exact ⟨congrArg Prod.snd turned, fun _ => by rw [left], fun accepted => absurd accepted refused⟩
  · have stored : e.step event = ({ e.withConnections c.family t with metrics }, judged c .ok) :=
      step.trans (by rw [outcome])
    have left : e' = { e.withConnections c.family t with metrics } := congrArg Prod.fst stored
    refine ⟨?_, fun refused => absurd accepted refused, fun _ => ?_⟩
    · rw [accepted]
      exact congrArg Prod.snd stored
    · refine ⟨(e.connections.get c.family).connections.next, ?_, ?_⟩
      · rw [left]
        exact reachable.sound.stores added metrics
      · rintro before after rfl n given
        exact lt_next_of_stored start before after c.family given

namespace Small

/-- A connection, a reset, and the same connection once more. -/
def renewed : List Event :=
  let both := [send .route .register (.route (route 7)),
    send (.connection .v4) .register (.connection (connection 1000 7 7))]
  both ++ send (.reset .v4) .register .empty :: both

/-- A record that forwards the way back of the connection. -/
def returning : Wire.Connection :=
  { Wire.Connection.ofTuples 6 (connection 1000 7 7).reply (Wire.Tuple.ofEndpoints (.v4 1) (.v4 2) 3 4) with
    directions := .origOnly }

/-- A record that names a route that is not there where it forwards nothing. -/
def halfway : Wire.Connection := { connection 2000 99 7 with directions := .replyOnly }

def submit (c : Wire.Connection) : Event := send (.connection .v4) .register (.connection c)

theorem submits_submit {c : Wire.Connection} (v4 : c.family = .v4) (canonical : (Wire.Record.connection c).Canonical) :
    Submits (submit c) c 0 := by
  have written := submits_written canonical client 0
  rwa [v4] at written

end Small

/-- The number that was given out before the reset is not given out again. The way back of
a connection is taken for the way there of another, and no route is needed where nothing is
forwarded. -/
theorem registration_judged_small :
    let e := Small.start.run Small.renewed
    ofConfig Small.config = .ok Small.start ∧ e.running = true ∧
      (e.connections.get .v4).connections.numbers = [2] ∧
      Submits (Small.submit Small.returning) Small.returning 0 ∧
      (e.step (Small.submit Small.returning)).2 = judged Small.returning .alreadyRegistered ∧
      Submits (Small.submit (Small.connection 2000 99 7)) (Small.connection 2000 99 7) 0 ∧
      (e.step (Small.submit (Small.connection 2000 99 7))).2 = judged (Small.connection 2000 99 7) .wrongParam ∧
      Submits (Small.submit Small.halfway) Small.halfway 0 ∧
      (e.step (Small.submit Small.halfway)).2 = judged Small.halfway .ok ∧
      ∃ seq, e.Stores Small.halfway 0 seq (e.step (Small.submit Small.halfway)).1 ∧ 2 < seq := by
  intro e
  have running : e.running = true := by decide +kernel
  have numbers : (e.connections.get .v4).connections.numbers = [2] := by decide +kernel
  have taken : Submits (Small.submit Small.returning) Small.returning 0 :=
    Small.submits_submit rfl ⟨⟨rfl, rfl⟩, rfl, rfl⟩
  have unrouted : Submits (Small.submit (Small.connection 2000 99 7)) (Small.connection 2000 99 7) 0 :=
    Small.submits_submit rfl ⟨⟨rfl, rfl⟩, rfl, rfl⟩
  have right : Submits (Small.submit Small.halfway) Small.halfway 0 :=
    Small.submits_submit rfl ⟨⟨rfl, rfl⟩, rfl, rfl⟩
  have ok : e.verdict Small.halfway = .ok := by decide +kernel
  obtain ⟨told, -⟩ := @registration_judged Small.config Small.start Small.renewed rfl running _ _ _ taken
  obtain ⟨told', -⟩ := @registration_judged Small.config Small.start Small.renewed rfl running _ _ _ unrouted
  obtain ⟨told'', -, stored⟩ := @registration_judged Small.config Small.start Small.renewed rfl running _ _ _ right
  obtain ⟨seq, stores, above⟩ := stored ok
  refine ⟨rfl, running, numbers, taken, ?_, unrouted, ?_, right, ?_, seq, stores, ?_⟩
  · exact told.trans (congrArg _ (by decide +kernel))
  · exact told'.trans (congrArg _ (by decide +kernel))
  · exact told''.trans (congrArg _ ok)
  · refine above Small.renewed [] (by rw [List.append_nil]) 2 ?_
    exact numbers ▸ List.mem_singleton.2 rfl

end Engine

end ControlPlane
