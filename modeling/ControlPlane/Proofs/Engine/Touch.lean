/-
What a message or a call of the host does to connections.

An event registers a connection, or touches one (`Touch`), and leaves all others that it
does not take away as they were (`step_arises`). So what is stored under a number was
stored before, and is what all touches since have made of it (`replay_run`).
-/
import ControlPlane.Proofs.Engine.Enumeration
import ControlPlane.Proofs.Engine.Event

namespace ControlPlane

namespace Wire.Message

variable {m : Message} {f : Family} {action : Action} {c : Connection}

/-- The action and the record of a command about a connection. -/
def connection? (m : Message) : Option (Action × Connection) :=
  match m.kind, Command.ofCode? m.code, Record.decode m with
  | .command, some (.connection _), .ok (some n, .connection c) =>
    (Action.ofNumber? n).map fun action => (action, c)
  | _, _, _ => none

theorem Carries.connection?_eq (h : m.Carries (.connection f) (some action) (.connection c)) :
    m.connection? = some (action, c) := by
  rw [connection?, h.1, h.command_eq, h.2.2]
  simp

theorem carries_of_connection? (h : m.connection? = some (action, c)) :
    m.Carries (.connection c.family) (some action) (.connection c) := by
  unfold connection? at h
  split at h
  · next f n c' hk hc hd =>
    obtain ⟨action', ha, heq⟩ := Option.map_eq_some_iff.1 h
    cases heq
    have family : c.family = f := by
      rw [decode_eq hc] at hd
      split at hd
      · cases hd
      · obtain ⟨r, hr, heq⟩ := map_eq_ok_iff.1 hd
        obtain ⟨c', hc', rfl⟩ := map_eq_ok_iff.1 hr
        obtain ⟨-, same⟩ := Prod.mk.inj heq
        cases same
        exact Connection.family_of_decode hc'
    refine ⟨hk, ?_, ?_⟩
    · rw [family]
      exact (Command.code_of_ofCode? hc).symm
    · rw [hd, Option.map_some, Action.number_of_ofNumber? ha]
  · cases h

end Wire.Message

namespace Engine

open Wire (Message)

variable {e e' e'' : Engine} {event : Event} {client : ClientId} {m : Message} {now seq : Nat} {f : Family}
  {action : Action} {c : Wire.Connection} {entry : Tracked}

/-! ## What only takes connections away -/

/-- What the later engine stores of connections, the earlier one does. -/
def Thins (e e' : Engine) : Prop :=
  ∀ f seq entry, (e'.connections.get f).get? seq = some entry → (e.connections.get f).get? seq = some entry

theorem thins_of_connections (h : e'.connections = e.connections) : e.Thins e' := by
  intro f seq entry he
  rwa [h] at he

theorem noteSizes_thins (e : Engine) : e.Thins e.noteSizes := thins_of_connections rfl

theorem Thins.trans (h : e.Thins e') (h' : e'.Thins e'') : e.Thins e'' :=
  fun f seq entry he => h f seq entry (h' f seq entry he)

theorem thins_withConnections {t : ConnectionTable}
    (h : ∀ seq entry, t.get? seq = some entry → (e.connections.get f).get? seq = some entry) :
    e.Thins (e.withConnections f t) := by
  intro g seq entry he
  rw [get_withConnections] at he
  split at he
  · next hg => exact hg ▸ h seq entry he
  · exact he

theorem removeAll_thins (e : Engine) (f : Family) (seqs : List Nat) :
    e.Thins (e.withConnections f ((e.connections.get f).removeAll seqs)) := by
  refine thins_withConnections fun seq entry he => ?_
  rw [ConnectionTable.get?_removeAll] at he
  split at he
  · cases he
  · exact he

theorem cascade_thins (e : Engine) (f : Family) (id : UInt32) : e.Thins (cascade id e f) := by
  rw [cascade_eq]
  exact (removeAll_thins e f _).trans (thins_of_connections rfl)

theorem dropRoute_thins (e : Engine) (id : UInt32) : e.Thins (e.dropRoute id).1 := by
  cases h : e.routes.get? id with
  | none =>
    rw [dropRoute_of_get?_eq_none h]
    exact thins_of_connections rfl
  | some r =>
    rw [dropRoute_of_get? h]
    have cascades : e.Thins (families.foldl (cascade id) e) :=
      (cascade_thins e .v4 id).trans (cascade_thins _ .v6 id)
    exact cascades.trans (thins_of_connections rfl)

theorem dropRoutes_thins (e : Engine) (ids : List UInt32) : e.Thins (e.dropRoutes ids).1 := by
  induction ids generalizing e with
  | nil => exact thins_of_connections rfl
  | cons id ids ih => exact (dropRoute_thins e id).trans (ih _)

theorem reset_thins (e : Engine) (f : Family) : e.Thins (e.reset f).1 := by
  have cleared : e.Thins (e.withConnections f (e.connections.get f).clear) :=
    thins_withConnections fun _ _ he => nomatch he
  exact cleared.trans (dropRoutes_thins _ _)

theorem ageFamily_thins (e : Engine) (f : Family) (now : Nat) : e.Thins (e.ageFamily f now).1 := by
  rw [fst_ageFamily, fst_takeConnections]
  exact (removeAll_thins e f _).trans (thins_of_connections rfl)

theorem age_thins (e : Engine) (now : Nat) : e.Thins (e.age now).1 := by
  obtain running | stopped := Bool.eq_false_or_eq_true e.running
  · have both := (ageFamily_thins e .v4 now).trans (ageFamily_thins _ .v6 now)
    rw [fst_age running]
    exact both.trans (noteSizes_thins _)
  · rw [age_of_not_running stopped]
    exact thins_of_connections rfl

theorem handleRoute_thins (e : Engine) (client : ClientId) (action : Action) (r : Wire.Route) :
    e.Thins (e.handleRoute client action r).engine := by
  have handled := handleRoute_handled e client action r
  generalize e.handleRoute client action r = o at handled
  cases handled with
  | registered | refused => exact thins_of_connections rfl
  | dropped => exact dropRoute_thins e r.id
  | listed =>
    obtain ⟨cursor, listed⟩ := list_engine e .routes action
    rw [listed]
    exact thins_of_connections rfl

/-- A command that is not about a connection registers none, and changes none. -/
theorem perform_thins {command : Command} {action : Option Action} {r : Wire.Record}
    (hm : m.Carries command action r) (other : m.connection? = none) (client : ClientId) (now : Nat) :
    e.Thins (e.perform client command action r now).engine := by
  have performed := perform_performed e client command action r now
  generalize e.perform client command action r now = o at performed
  cases performed with
  | route => exact handleRoute_thins e client _ _
  | connection =>
    rw [hm.connection?_eq] at other
    cases other
  | reset => exact reset_thins e _
  | beside _ _ connections => exact thins_of_connections connections

/-! ## Commands about a connection -/

/-- What a command about a connection comes to. -/
inductive Handled (e : Engine) (action : Action) (c : Wire.Connection) (now : Nat) : Outcome → Prop
  | registered {seq : Nat} {t : ConnectionTable} (ha : action = .register)
      (ht : (e.connections.get c.family).add c now = .ok (seq, t)) :
      Handled e action c now ⟨e.withConnections c.family t, .ok, []⟩
  | shown {seq : Nat} (ha : action = .keepAlive)
      (hs : (e.connections.get c.family).find? c.protocol c.orig = some seq) :
      Handled e action c now
        ⟨e.withConnections c.family
          ((e.connections.get c.family).modify seq fun entry => { entry with seen := now }), .ok, []⟩
  | flagged {seq : Nat} (ha : action = .update)
      (hs : (e.connections.get c.family).find? c.protocol c.orig = some seq) :
      Handled e action c now
        ⟨e.withConnections c.family
          ((e.connections.get c.family).modify seq fun entry =>
            { entry with connection := { entry.connection with ttlDecrement := c.ttlDecrement } }), .ok, []⟩
  | removed {seq : Nat} (ha : action = .deregister)
      (hs : (e.connections.get c.family).find? c.protocol c.orig = some seq) :
      Handled e action c now
        ⟨e.withConnections c.family ((e.connections.get c.family).remove seq).2, .ok, []⟩
  | listed {o : Outcome} (ha : action.lists = true) (hc : o.engine.connections = e.connections) :
      Handled e action c now o
  | refused {status : Status} (hs : status ≠ .ok) : Handled e action c now (e.refused status)

theorem handleConnection_handled (e : Engine) (action : Action) (c : Wire.Connection) (now : Nat) :
    Handled e action c now (e.handleConnection action c now) := by
  cases action with
  | register =>
    show Handled e _ c now (e.settled (e.addConnection c now))
    cases h : e.addConnection c now with
    | error status => exact .refused fun hs => addConnection_ne_ok e c now (hs ▸ h)
    | ok e' =>
      obtain ⟨-, seq, t, ht, rfl⟩ := addConnection_eq_ok h
      exact .registered rfl ht
  | deregister =>
    show Handled e _ c now (e.settled (e.removeConnection c))
    cases h : e.removeConnection c with
    | error status => exact .refused fun hs => removeConnection_ne_ok e c (hs ▸ h)
    | ok e' =>
      obtain ⟨seq, hs, rfl⟩ := removeConnection_eq_ok h
      exact .removed rfl hs
  | update =>
    show Handled e _ c now (e.settled (e.updateConnection c))
    cases h : e.updateConnection c with
    | error status => exact .refused fun hs => modifyFound_ne_ok e c _ (hs ▸ h)
    | ok e' =>
      obtain ⟨seq, hs, rfl⟩ := modifyFound_eq_ok h
      exact .flagged rfl hs
  | keepAlive =>
    show Handled e _ c now (e.settled (e.keepAlive c now))
    cases h : e.keepAlive c now with
    | error status => exact .refused fun hs => modifyFound_ne_ok e c _ (hs ▸ h)
    | ok e' =>
      obtain ⟨seq, hs, rfl⟩ := modifyFound_eq_ok h
      exact .shown rfl hs
  | query | queryCont =>
    obtain ⟨cursor, listed⟩ := list_engine e (.connections c.family) _
    rw [handleConnection_list e c now rfl]
    refine .listed rfl ?_
    rw [listed]
    rfl
  | removed => exact .refused (by decide)

/-- A running engine answers a command about a connection as its handler does. -/
theorem dispatch_connection (running : e.running = true) (hc : m.connection? = some (action, c)) :
    e.dispatch client m now =
      let o := e.handleConnection action c now
      { o with
        engine :=
          { o.engine with
            metrics := o.engine.noteSizes.metrics.answered m.code o.reply.status.isOk } } := by
  rw [dispatch_of_carries running (Message.carries_of_connection? hc)]
  rfl

/-- The command about a connection that an event is, when it is answered with
`Status.ok`, with its record and the instant. -/
def accepted? (e : Engine) (event : Event) : Option (Action × Wire.Connection × Nat) :=
  event.message?.bind fun (client, m, now) =>
    if (e.dispatch client m now).reply.status = .ok then m.connection?.map fun (action, c) => (action, c, now)
    else none

theorem accepted?_eq_some {event : Event} (h : e.accepted? event = some (action, c, now)) :
    ∃ client m, event.message? = some (client, m, now) ∧ e.running = true ∧
      m.connection? = some (action, c) ∧ (e.handleConnection action c now).reply.status = .ok := by
  obtain ⟨⟨client, m, now'⟩, hm, h⟩ := Option.bind_eq_some_iff.1 h
  dsimp only at h
  split at h
  · next ok =>
    obtain ⟨⟨action', c'⟩, hc, same⟩ := Option.map_eq_some_iff.1 h
    cases same
    have running := running_of_ok ok
    rw [dispatch_connection running hc] at ok
    exact ⟨client, m, hm, running, hc, ok⟩
  · cases h

theorem accepted?_of_ok (hm : event.message? = some (client, m, now)) (running : e.running = true)
    (hc : m.connection? = some (action, c)) (ok : (e.handleConnection action c now).reply.status = .ok) :
    e.accepted? event = some (action, c, now) := by
  have dispatched : (e.dispatch client m now).reply.status = .ok := by
    rw [dispatch_connection running hc]
    exact ok
  rw [accepted?, hm, Option.bind_some]
  simp only [dispatched, if_true, hc, Option.map_some]

/-- What an event is accepted as is what its message says. -/
theorem accepted?_unique (hm : event.message? = some (client, m, now)) (hc : m.connection? = some (action, c))
    {action' : Action} {c' : Wire.Connection} {now' : Nat} (h : e.accepted? event = some (action', c', now')) :
    action' = action ∧ c' = c ∧ now' = now ∧ (e.handleConnection action c now).reply.status = .ok := by
  obtain ⟨_, _, hm', -, hc', ok⟩ := accepted?_eq_some h
  cases hm.symm.trans hm'
  cases hc.symm.trans hc'
  exact ⟨rfl, rfl, rfl, ok⟩

/-! ## Touches -/

/-- What an event does to a connection that is stored. -/
inductive Touch where
  /-- It is kept alive. -/
  | seen (now : Nat)
  /-- It is updated. -/
  | flagged (ttlDecrement : Bool)
  /-- A packet of one of its directions is counted. -/
  | packet (d : Direction) (octets : UInt64) (now : Nat)

/-- The connection after a touch. -/
def Touch.on : Touch → Tracked → Tracked
  | .seen now, entry => { entry with seen := now }
  | .flagged ttlDecrement, entry => { entry with connection := { entry.connection with ttlDecrement } }
  | .packet d octets now, entry => { entry with connection := entry.connection.hit d octets, seen := now }

/-- The connection after touches, in order. -/
def Touch.replay (touches : List Touch) (entry : Tracked) : Tracked :=
  touches.foldl (fun entry touch => touch.on entry) entry

/-- What a command does to the connection that its record leads to. -/
def Touch.ofCommand? (action : Action) (c : Wire.Connection) (now : Nat) : Option Touch :=
  match action with
  | .keepAlive => some (.seen now)
  | .update => some (.flagged c.ttlDecrement)
  | .register | .deregister | .query | .queryCont | .removed => none

/-- The connection that an event touches, by its family and its number, and how. -/
def touch? (e : Engine) (event : Event) : Option (Family × Nat × Touch) :=
  match event with
  | .packet f key octets now =>
    ((e.connections.get f).flows.get? key).map fun (seq, d) => (f, seq, .packet d octets now)
  | event => (e.accepted? event).bind fun (action, c, now) =>
      (Touch.ofCommand? action c now).bind fun touch =>
        ((e.connections.get c.family).find? c.protocol c.orig).map fun seq => (c.family, seq, touch)

/-- What an event does to one connection. -/
def touchOf? (e : Engine) (event : Event) (f : Family) (seq : Nat) : Option Touch :=
  (e.touch? event).bind fun (g, n, touch) => if f = g ∧ n = seq then some touch else none

theorem Touch.identity_on (touch : Touch) (entry : Tracked) : (touch.on entry).identity = entry.identity := by
  cases touch with
  | packet d octets now => exact entry.identity_hit d octets now
  | seen | flagged => rfl

theorem Touch.identity_replay (touches : List Touch) (entry : Tracked) :
    (replay touches entry).identity = entry.identity := by
  induction touches generalizing entry with
  | nil => rfl
  | cons touch touches ih => exact (ih (touch.on entry)).trans (touch.identity_on entry)

theorem Touch.replay_append (before after : List Touch) (entry : Tracked) :
    replay (before ++ after) entry = replay after (replay before entry) :=
  List.foldl_append ..

theorem touch?_of_message (hm : event.message? = some (client, m, now)) :
    e.touch? event = (e.accepted? event).bind fun (action, c, now) =>
      (Touch.ofCommand? action c now).bind fun touch =>
        ((e.connections.get c.family).find? c.protocol c.orig).map fun seq => (c.family, seq, touch) := by
  cases event with
  | packet => cases hm
  | _ => rfl

theorem touch?_of_accepted (h : e.accepted? event = some (action, c, now)) :
    e.touch? event = (Touch.ofCommand? action c now).bind fun touch =>
      ((e.connections.get c.family).find? c.protocol c.orig).map fun seq => (c.family, seq, touch) := by
  obtain ⟨client, m, hm, -⟩ := accepted?_eq_some h
  rw [touch?_of_message hm, h, Option.bind_some]

theorem touchOf?_of_touch? {g : Family} {n : Nat} {touch : Touch} (h : e.touch? event = some (g, n, touch)) :
    e.touchOf? event f seq = if f = g ∧ n = seq then some touch else none := by
  rw [touchOf?, h]
  rfl

theorem touchOf?_of_none (h : e.touch? event = none) : e.touchOf? event f seq = none := by
  rw [touchOf?, h]
  rfl

theorem touchOf?_eq_some_iff {touch : Touch} :
    e.touchOf? event f seq = some touch ↔ e.touch? event = some (f, seq, touch) := by
  constructor
  · intro h
    obtain ⟨⟨g, n, touch'⟩, touched, it⟩ := Option.bind_eq_some_iff.1 h
    obtain ⟨⟨rfl, rfl⟩, same⟩ := Option.ite_none_right_eq_some.1 it
    rw [touched, Option.some.inj same]
  · intro touched
    rw [touchOf?_of_touch? touched, if_pos ⟨rfl, rfl⟩]

/-- How a connection comes to be stored after an event: it is registered, or it was there
and is what the event makes of it. -/
inductive Arises (e : Engine) (event : Event) (f : Family) (seq : Nat) (entry : Tracked) : Prop
  | registered {c : Wire.Connection} {now : Nat} (h : e.accepted? event = some (.register, c, now))
      (hf : c.family = f) (hs : seq = (e.connections.get f).connections.next) (he : entry = ⟨c, now, now⟩)
  | kept {old : Tracked} (h : (e.connections.get f).get? seq = some old)
      (he : entry = Touch.replay (e.touchOf? event f seq).toList old)

theorem arises_of_thins (ht : e.Thins e') (hn : e.touch? event = none)
    (h : (e'.connections.get f).get? seq = some entry) : Arises e event f seq entry :=
  .kept (ht f seq entry h) (by rw [touchOf?_of_none hn]; rfl)

/-- A connection changed in place is the one that it was, under its number. -/
theorem get?_withConnections_modify {g : Tracked → Tracked} {f' : Family} {n : Nat}
    (h : ((e.withConnections f' ((e.connections.get f').modify n g)).connections.get f).get? seq = some entry) :
    ∃ old, (e.connections.get f).get? seq = some old ∧
      entry = if f = f' ∧ n = seq then g old else old := by
  rw [get_withConnections] at h
  split at h
  · next hf =>
    subst hf
    rw [ConnectionTable.get?_modify] at h
    split at h
    · next hn =>
      obtain ⟨old, before, rfl⟩ := Option.map_eq_some_iff.1 h
      exact ⟨old, before, (if_pos ⟨rfl, hn⟩).symm⟩
    · next hn => exact ⟨entry, h, (if_neg fun both => hn both.2).symm⟩
  · next hf => exact ⟨entry, h, (if_neg fun both => hf both.1).symm⟩

/-- A connection that a command changes in place is touched. -/
theorem arises_of_modify {g : Family} {n : Nat} {touch : Touch} (ht : e.touch? event = some (g, n, touch))
    (h : ((e.withConnections g ((e.connections.get g).modify n touch.on)).connections.get f).get? seq = some entry) :
    Arises e event f seq entry := by
  obtain ⟨old, before, rfl⟩ := get?_withConnections_modify h
  refine .kept before ?_
  rw [touchOf?_of_touch? ht]
  split <;> rfl

theorem handled_arises (hm : event.message? = some (client, m, now)) (running : e.running = true)
    (hc : m.connection? = some (action, c))
    (h : ((e.handleConnection action c now).engine.connections.get f).get? seq = some entry) :
    Arises e event f seq entry := by
  have accepts := accepted?_of_ok hm running hc
  -- What is refused and what is no touch leaves what it does not take away.
  have untouched (quiet : (e.handleConnection action c now).reply.status = .ok → Touch.ofCommand? action c now = none) :
      e.touch? event = none := by
    rw [touch?_of_message hm]
    cases accepted : e.accepted? event with
    | none => rfl
    | some sent =>
      obtain ⟨action', c', now'⟩ := sent
      obtain ⟨rfl, rfl, rfl, ok⟩ := accepted?_unique hm hc accepted
      simp only [Option.bind_some, quiet ok, Option.bind_none]
  have handled := handleConnection_handled e action c now
  generalize e.handleConnection action c now = o at h accepts untouched handled
  cases handled with
  | @registered n t ha ht =>
    subst ha
    obtain ⟨-, -, -, number, -⟩ := ConnectionTable.add_eq_ok_iff.1 ht
    have other (before : (e.connections.get f).get? seq = some entry) : Arises e event f seq entry :=
      .kept before (by rw [touchOf?_of_none (untouched fun _ => rfl)]; rfl)
    rw [get_withConnections] at h
    split at h
    · next hf =>
      subst hf
      rw [ConnectionTable.get?_add ht] at h
      split at h
      · next hn =>
        cases h
        exact .registered (accepts rfl) rfl (hn.trans number) rfl
      · exact other h
    · exact other h
  | @shown n ha hs =>
    subst ha
    have touched : e.touch? event = some (c.family, n, .seen now) := by
      rw [touch?_of_accepted (accepts rfl), Touch.ofCommand?, Option.bind_some, hs]
      rfl
    exact arises_of_modify touched h
  | @flagged n ha hs =>
    subst ha
    have touched : e.touch? event = some (c.family, n, .flagged c.ttlDecrement) := by
      rw [touch?_of_accepted (accepts rfl), Touch.ofCommand?, Option.bind_some, hs]
      rfl
    exact arises_of_modify touched h
  | @removed n ha hs =>
    subst ha
    have taken : e.Thins (e.withConnections c.family ((e.connections.get c.family).remove n).2) :=
      removeAll_thins e c.family [n]
    exact arises_of_thins taken (untouched fun _ => rfl) h
  | listed ha hl =>
    have quiet : Touch.ofCommand? action c now = none := by cases action <;> first | rfl | cases ha
    exact arises_of_thins (thins_of_connections hl) (untouched fun _ => quiet) h
  | refused hs => exact arises_of_thins (thins_of_connections rfl) (untouched fun ok => absurd ok hs) h

theorem message_arises (hm : event.message? = some (client, m, now))
    (h : ((e.dispatch client m now).engine.connections.get f).get? seq = some entry) :
    Arises e event f seq entry := by
  have quiet (ha : e.accepted? event = none) : e.touch? event = none := by
    rw [touch?_of_message hm, ha]
    rfl
  cases hc : m.connection? with
  | none =>
    have unaccepted : e.accepted? event = none := by
      rw [accepted?, hm, Option.bind_some]
      simp only [hc, Option.map_none, ite_self]
    refine arises_of_thins ?_ (quiet unaccepted) h
    have answered := dispatch_answered e client m now
    generalize e.dispatch client m now = o at answered
    cases answered with
    | performed metrics running carries => exact (perform_thins carries hc client now).trans (thins_of_connections rfl)
    | joined | left | refused => exact thins_of_connections rfl
  | some found =>
    obtain ⟨action, c⟩ := found
    obtain running | stopped := Bool.eq_false_or_eq_true e.running
    · rw [dispatch_connection running hc] at h
      exact handled_arises hm running hc h
    · rw [dispatch, handle_of_not_running stopped] at h
      refine arises_of_thins (thins_of_connections rfl) (quiet ?_) h
      cases ha : e.accepted? event with
      | none => rfl
      | some _ =>
        obtain ⟨_, _, -, running, -⟩ := accepted?_eq_some ha
        rw [stopped] at running
        cases running

theorem packet_arises {key : FlowKey} {octets : UInt64} {g : Family}
    (h : ((e.account g key octets now).1.connections.get f).get? seq = some entry) :
    Arises e (.packet g key octets now) f seq entry := by
  obtain ⟨looked, missed⟩ | ⟨n, d, _, flow, -, counted⟩ := account_cases e g key octets now
  · rw [missed] at h
    refine .kept h ?_
    have elsewhere : e.touchOf? (.packet g key octets now) f seq = none := by
      refine Option.eq_none_iff_forall_ne_some.2 fun touch touched => ?_
      obtain ⟨⟨n, d⟩, flow, same⟩ := Option.map_eq_some_iff.1 (touchOf?_eq_some_iff.1 touched)
      cases same
      -- The key leads to a connection that is stored, so the packet belongs to it.
      rw [ConnectionTable.lookup?_eq_some.2 ⟨seq, flow, h⟩] at looked
      cases looked
    rw [elsewhere]
    rfl
  · rw [counted] at h
    have touched : e.touch? (.packet g key octets now) = some (g, n, .packet d octets now) := by
      simp only [touch?, flow, Option.map_some]
    exact arises_of_modify touched h

/-- Every event is accounted for. -/
theorem step_arises (h : ((e.step event).1.connections.get f).get? seq = some entry) :
    Arises e event f seq entry := by
  induction event using Event.byMessage with
  | message event client m now hm =>
    rw [step_of_message hm] at h
    exact message_arises hm h
  | malformed client octets now error hd =>
    rw [step_of_malformed hd] at h
    have none : Event.message? (.datagram client octets now) = none := by
      simp only [Event.message?, hd, Except.toOption, Option.map_none]
    exact arises_of_thins (thins_of_connections rfl) (by simp only [touch?, accepted?, none, Option.bind_none]) h
  | age now => exact arises_of_thins (age_thins e now) rfl h
  | packet g key octets now => exact packet_arises h
  | acquire client =>
    obtain ⟨_, acquired⟩ := acquire_writes e client
    exact arises_of_thins (thins_of_connections (by rw [acquired])) rfl h
  | shutdown =>
    obtain ⟨_, _, _, _, stopped⟩ := shutdown_writes e
    have same : (e.step .shutdown).1.connections = e.connections := by
      show e.shutdown.connections = e.connections
      rw [stopped]
    exact arises_of_thins (thins_of_connections same) rfl h
  | health | register | unregister | unreachable | release =>
    exact arises_of_thins (thins_of_connections rfl) rfl h

/-! ## Histories -/

/-- What a history does to one connection. -/
def touches (e : Engine) (f : Family) (seq : Nat) : List Event → List Touch
  | [] => []
  | event :: history => (e.touchOf? event f seq).toList ++ (e.step event).1.touches f seq history

/-- What is stored under a number that was given out before was stored then, and is what
the history made of it. -/
theorem replay_run (history : List Event) (issued : seq ≤ (e.connections.get f).connections.last)
    (h : ((e.run history).connections.get f).get? seq = some entry) :
    ∃ old, (e.connections.get f).get? seq = some old ∧ entry = Touch.replay (e.touches f seq history) old := by
  induction history generalizing e with
  | nil => exact ⟨entry, h, rfl⟩
  | cons event history ih =>
    obtain ⟨mid, between, rfl⟩ := ih (Nat.le_trans issued (connections_grow e event f).last_le) h
    cases step_arises between with
    | registered _ _ number =>
      have fresh : seq = (e.connections.get f).connections.last + 1 := number
      omega
    | @kept old before he => exact ⟨old, before, by rw [he, touches, Touch.replay_append]⟩

end Engine

end ControlPlane
