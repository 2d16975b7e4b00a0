/-
No connection is lost, and none is counted twice.

A connection leaves its table when a client deregisters it, when its route goes away or it
is idle, which is counted, and when its family is reset. What an operation makes of the
tables and the counters is one balance (`Balances`): whatever was there or came is there
afterwards or left in one of these ways. Balances add up (`Balances.trans`), so that of a
history is a sum over its events (`total`).
-/
import ControlPlane.Proofs.Engine.Presence

namespace ControlPlane

namespace Wire.Message

variable {m : Message} {command : Command} {action : Option Action} {r : Record}

/-- The family that a command resets. -/
def reset? (m : Message) : Option Family :=
  match m.kind, Command.ofCode? m.code with
  | .command, some (.reset f) => some f
  | _, _ => none

theorem Carries.reset?_of_ne (h : m.Carries command action r) (other : ∀ f, command ≠ .reset f) :
    m.reset? = none := by
  unfold reset?
  rw [h.1, h.command_eq]
  cases command with
  | reset f => exact absurd rfl (other f)
  | _ => rfl

theorem Carries.reset?_eq {f : Family} (h : m.Carries (.reset f) action r) : m.reset? = some f := by
  unfold reset?
  rw [h.1, h.command_eq]

end Wire.Message

namespace ConnectionTable

variable {t t' : ConnectionTable} {c : Wire.Connection} {now seq : Nat}

theorem size_add (h : t.add c now = .ok (seq, t')) : t'.size = t.size + 1 := by
  obtain ⟨-, -, -, -, rfl⟩ := add_eq_ok_iff.1 h
  exact Sequenced.size_push ..

theorem size_remove {entry : Tracked} (h : t.get? seq = some entry) : (t.remove seq).2.size + 1 = t.size := by
  rw [size, connections_remove]
  exact Sequenced.size_erase h

/-- Of all connections some are taken away, and the others are left. -/
theorem size_removeAll_filter (t : ConnectionTable) (p : Nat × Tracked → Bool) :
    (t.removeAll ((t.connections.entries.filter p).map (·.1))).size + (t.connections.entries.filter p).length =
      t.size := by
  have split := t.connections.entries.length_eq_length_filter_add p
  show List.length (Sequenced.entries _) + _ = t.connections.entries.length
  rw [t.entries_removeAll_filter, split, Nat.add_comm]

end ConnectionTable

namespace Engine

open Wire (Message)

variable {e e' e'' : Engine} {event : Event} {client : ClientId} {m : Message} {now : Nat} {f : Family}
  {action : Action} {c : Wire.Connection} {came went came' went' : Nat}

/-! ## What is counted -/

/-- How many connections are tracked, of both families. -/
def tracked (e : Engine) : Nat := e.connections.v4.size + e.connections.v6.size

/-- One for a command about a connection that is answered with `Status.ok`, none for
anything else. -/
def accepts (action : Action) (e : Engine) (event : Event) : Nat :=
  if (e.accepted? event).any (·.1 == action) then 1 else 0

/-- The family that an event resets, when it is answered with `Status.ok`. -/
def reset? (e : Engine) (event : Event) : Option Family :=
  event.message?.bind fun (client, m, now) => if (e.dispatch client m now).reply.status = .ok then m.reset? else none

/-- How many connections the family has that an event resets. -/
def cleared (e : Engine) (event : Event) : Nat := (e.reset? event).elim 0 fun f => (e.connections.get f).size

/-- An amount that each event of a history may have, over all of them. -/
def total (amount : Engine → Event → Nat) (e : Engine) : List Event → Nat
  | [] => 0
  | event :: history => amount e event + (e.step event).1.total amount history

theorem accepts_of_accepted (h : e.accepted? event = some (action, c, now)) : e.accepts action event = 1 := by
  simp [accepts, h]

theorem accepts_eq_zero (h : ∀ c now, e.accepted? event ≠ some (action, c, now)) : e.accepts action event = 0 := by
  rw [accepts, if_neg]
  intro any
  obtain ⟨⟨action', c, now⟩, accepted, same⟩ := (Option.any_eq_true ..).1 any
  exact h c now (beq_iff_eq.1 same ▸ accepted)

/-! ## Balances -/

/-- An engine and a later one between which connections came and went: each that was
there or came is there, or went, or is counted as one that went with its route or was
idle. -/
def Balances (e e' : Engine) (came went : Nat) : Prop :=
  ∃ cascaded aged : Nat,
    e'.metrics.count .cascaded = e.metrics.count .cascaded + .ofNat cascaded ∧
      e'.metrics.count .aged = e.metrics.count .aged + .ofNat aged ∧
      e.tracked + came = e'.tracked + went + cascaded + aged

theorem balances_of_size (counts : ∀ counter, e'.metrics.count counter = e.metrics.count counter)
    (size : e.tracked + came = e'.tracked + went) : e.Balances e' came went :=
  ⟨0, 0, by simp [counts], by simp [counts], size⟩

theorem balances_of_same (counts : ∀ counter, e'.metrics.count counter = e.metrics.count counter)
    (connections : e'.connections = e.connections) : e.Balances e' 0 0 := by
  refine balances_of_size counts ?_
  rw [tracked, tracked, connections]

theorem Balances.trans (h : e.Balances e' came went) (h' : e'.Balances e'' came' went') :
    e.Balances e'' (came + came') (went + went') := by
  obtain ⟨cascaded, aged, hc, ha, size⟩ := h
  obtain ⟨cascaded', aged', hc', ha', size'⟩ := h'
  refine ⟨cascaded + cascaded', aged + aged', ?_, ?_, by omega⟩
  · rw [hc', hc, UInt64.ofNat_add, UInt64.add_assoc]
  · rw [ha', ha, UInt64.ofNat_add, UInt64.add_assoc]

/-- What only notes sizes and answers changes no balance. -/
theorem Balances.noted {metrics : Metrics} (h : e.Balances e' came went)
    (counts : ∀ counter, metrics.count counter = e'.metrics.count counter) :
    e.Balances { e' with metrics } came went := by
  have same : e'.Balances { e' with metrics } 0 0 := balances_of_same counts rfl
  exact h.trans same

theorem count_noteSizes (e : Engine) (counter : Counter) :
    e.noteSizes.metrics.count counter = e.metrics.count counter := by
  cases counter <;> rfl

/-! ## Tables -/

theorem tracked_withConnections (e : Engine) (f : Family) (t : ConnectionTable) :
    (e.withConnections f t).tracked + (e.connections.get f).size = e.tracked + t.size := by
  cases f <;> simp only [tracked, withConnections, PerFamily.set, PerFamily.get] <;> omega

theorem withConnections_balances {t : ConnectionTable} (size : (e.connections.get f).size + came = t.size + went) :
    e.Balances (e.withConnections f t) came went := by
  have table := e.tracked_withConnections f t
  exact balances_of_size (fun _ => rfl) (by omega)

/-- Connections of some kind that are taken away and counted. -/
theorem taken_balances (e : Engine) (f : Family) (p : Nat × Tracked → Bool) {counter : Counter}
    (counted : counter = .cascaded ∨ counter = .aged) :
    let taken := (e.connections.get f).connections.entries.filter p
    e.Balances ((e.withConnections f ((e.connections.get f).removeAll (taken.map (·.1)))).count counter
      (.ofNat taken.length)) 0 0 := by
  intro taken
  have table := e.tracked_withConnections f ((e.connections.get f).removeAll (taken.map (·.1)))
  have size : ((e.connections.get f).removeAll (taken.map (·.1))).size + taken.length = (e.connections.get f).size :=
    (e.connections.get f).size_removeAll_filter p
  have tracked : e.tracked =
      (e.withConnections f ((e.connections.get f).removeAll (taken.map (·.1)))).tracked + taken.length := by omega
  obtain rfl | rfl := counted
  · exact ⟨taken.length, 0, rfl, (UInt64.add_zero _).symm, tracked⟩
  · exact ⟨0, taken.length, (UInt64.add_zero _).symm, rfl, tracked⟩

theorem cascade_balances (e : Engine) (f : Family) (id : UInt32) : e.Balances (cascade id e f) 0 0 := by
  have taken := e.taken_balances f (fun x => ConnectionTable.uses x.2.connection id) (.inl rfl)
  rw [cascade_eq, ConnectionTable.usingRoute, List.length_map]
  exact taken

theorem dropRoute_balances (e : Engine) (id : UInt32) : e.Balances (e.dropRoute id).1 0 0 := by
  cases found : e.routes.get? id with
  | none =>
    rw [dropRoute_of_get?_eq_none found]
    exact balances_of_same (fun _ => rfl) rfl
  | some r =>
    have both := (e.cascade_balances .v4 id).trans (cascade_balances _ .v6 id)
    rw [dropRoute_of_get? found]
    exact both.trans (balances_of_same (fun _ => rfl) rfl)

theorem dropRoutes_balances (e : Engine) (ids : List UInt32) : e.Balances (e.dropRoutes ids).1 0 0 := by
  induction ids generalizing e with
  | nil => exact balances_of_same (fun _ => rfl) rfl
  | cons id ids ih => exact (e.dropRoute_balances id).trans (ih _)

/-- The connections of the family go at once, so that of the routes that follow none has
any left to count. -/
theorem reset_balances (e : Engine) (f : Family) : e.Balances (e.reset f).1 0 (e.connections.get f).size := by
  have cleared : e.Balances (e.withConnections f (e.connections.get f).clear) 0 (e.connections.get f).size :=
    withConnections_balances (by simp [ConnectionTable.size, ConnectionTable.clear, Sequenced.size, Sequenced.clear,
      SortedMap.size, SortedMap.empty])
  exact cleared.trans (dropRoutes_balances _ _)

theorem ageFamily_balances (e : Engine) (f : Family) (now : Nat) : e.Balances (e.ageFamily f now).1 0 0 := by
  rw [ageFamily_eq]
  exact e.taken_balances f (fun x => e.timeouts.exceeded x.2.connection.protocol x.2.seen now) (.inr rfl)

theorem age_balances (e : Engine) (now : Nat) : e.Balances (e.age now).1 0 0 := by
  obtain running | stopped := Bool.eq_false_or_eq_true e.running
  · have both := (e.ageFamily_balances .v4 now).trans (ageFamily_balances _ .v6 now)
    rw [fst_age running]
    exact both.noted fun counter => count_noteSizes _ counter
  · rw [age_of_not_running stopped]
    exact balances_of_same (fun _ => rfl) rfl

theorem account_balances (e : Engine) (f : Family) (key : FlowKey) (octets : UInt64) (now : Nat) :
    e.Balances (e.account f key octets now).1 0 0 := by
  obtain ⟨-, missed⟩ | ⟨seq, _, _, -, -, counted⟩ := account_cases e f key octets now
  · rw [missed]
    exact balances_of_same (fun _ => rfl) rfl
  · have shown (g : Tracked → Tracked) : e.Balances (e.withConnections f ((e.connections.get f).modify seq g)) 0 0 :=
      withConnections_balances (ConnectionTable.size_modify ..).symm
    rw [counted]
    exact (shown _).trans (balances_of_same (fun _ => rfl) rfl)

/-! ## Commands -/

theorem handleRoute_balances (e : Engine) (client : ClientId) (action : Action) (r : Wire.Route) :
    e.Balances (e.handleRoute client action r).engine 0 0 := by
  have handled := handleRoute_handled e client action r
  generalize e.handleRoute client action r = o at handled
  cases handled with
  | registered | refused => exact balances_of_same (fun _ => rfl) rfl
  | dropped => exact e.dropRoute_balances r.id
  | listed =>
    obtain ⟨cursor, listed⟩ := list_engine e .routes action
    rw [listed]
    exact balances_of_same (fun _ => rfl) rfl

/-- A command that is not about a connection takes away those of the family that it
resets, and what it takes away otherwise is counted. -/
theorem perform_balances {command : Command} {action : Option Action} {r : Wire.Record}
    (hm : m.Carries command action r) (other : m.connection? = none) (client : ClientId) (now : Nat) :
    e.Balances (e.perform client command action r now).engine 0
      (m.reset?.elim 0 fun f => (e.connections.get f).size) := by
  have performed := perform_performed e client command action r now
  generalize e.perform client command action r now = o at performed
  cases performed with
  | route =>
    rw [hm.reset?_of_ne (by simp)]
    exact e.handleRoute_balances client _ _
  | connection =>
    rw [hm.connection?_eq] at other
    cases other
  | reset =>
    rw [hm.reset?_eq]
    exact e.reset_balances _
  | beside resets _ connections metrics =>
    rw [hm.reset?_of_ne resets]
    exact balances_of_same (fun counter => by rw [metrics]) connections

theorem accepts_of_connection? (hm : event.message? = some (client, m, now)) (hc : m.connection? = some (action, c))
    {action' : Action} (ne : action ≠ action') : e.accepts action' event = 0 := by
  refine accepts_eq_zero fun c' now' accepted => ne ?_
  obtain ⟨same, -⟩ := accepted?_unique hm hc accepted
  exact same.symm

theorem handled_balances (h : e.Sound) (hm : event.message? = some (client, m, now)) (running : e.running = true)
    (hc : m.connection? = some (action, c)) :
    e.Balances (e.handleConnection action c now).engine (e.accepts .register event) (e.accepts .deregister event) := by
  have accepted := accepted?_of_ok hm running hc
  have other {action' : Action} : action ≠ action' → e.accepts action' event = 0 := accepts_of_connection? hm hc
  have counts (counter : Counter) :
      (e.handleConnection action c now).engine.metrics.count counter = e.metrics.count counter := by
    rw [(handleConnection_writes e action c now c.family).metrics (by simp) (by simp)]
  have refused (failed : (e.handleConnection action c now).reply.status ≠ .ok) (action' : Action) :
      e.accepts action' event = 0 := by
    refine accepts_eq_zero fun c' now' accepted => failed ?_
    obtain ⟨-, -, -, ok⟩ := accepted?_unique hm hc accepted
    exact ok
  have handled := handleConnection_handled e action c now
  generalize e.handleConnection action c now = o at accepted counts refused handled
  cases handled with
  | registered ha ht =>
    subst ha
    rw [accepts_of_accepted (accepted rfl), other (by decide)]
    exact withConnections_balances (by rw [ConnectionTable.size_add ht])
  | shown ha _ | flagged ha _ =>
    subst ha
    rw [other (by decide), other (by decide)]
    exact withConnections_balances (ConnectionTable.size_modify ..).symm
  | removed ha hs =>
    subst ha
    obtain ⟨entry, stored⟩ := h.found hs
    rw [other (by decide), accepts_of_accepted (accepted rfl)]
    exact withConnections_balances (ConnectionTable.size_remove stored).symm
  | listed ha connections =>
    have register : action ≠ .register := by
      rintro rfl
      cases ha
    have deregister : action ≠ .deregister := by
      rintro rfl
      cases ha
    rw [other register, other deregister]
    exact balances_of_same counts connections
  | refused failed =>
    rw [refused failed, refused failed]
    exact balances_of_same (fun _ => rfl) rfl

/-! ## Events -/

theorem reset?_of_message (hm : event.message? = some (client, m, now)) :
    e.reset? event = if (e.dispatch client m now).reply.status = .ok then m.reset? else none := by
  rw [Engine.reset?, hm]
  rfl

theorem cleared_of_refused (hm : event.message? = some (client, m, now))
    (failed : (e.dispatch client m now).reply.status ≠ .ok) : e.cleared event = 0 := by
  rw [cleared, reset?_of_message hm, if_neg failed]
  rfl

theorem cleared_of_carries {command : Command} {action : Option Action} {r : Wire.Record}
    (hm : event.message? = some (client, m, now)) (running : e.running = true) (carries : m.Carries command action r) :
    e.cleared event = m.reset?.elim 0 fun f => (e.connections.get f).size := by
  rw [cleared, reset?_of_message hm]
  by_cases resets : ∃ f, command = .reset f
  · obtain ⟨f, rfl⟩ := resets
    have ok : (e.dispatch client m now).reply.status = .ok := by
      rw [dispatch_of_carries running carries]
      rfl
    rw [if_pos ok]
  · rw [carries.reset?_of_ne fun f same => resets ⟨f, same⟩, ite_self]

/-- A message that is not about a connection takes away those of the family that it
resets. -/
theorem other_balances (hm : event.message? = some (client, m, now)) (running : e.running = true)
    (other : m.connection? = none) : e.Balances (e.dispatch client m now).engine 0 (e.cleared event) := by
  by_cases hk : m.kind = .command
  · obtain ⟨command, action, r, carries⟩ | ⟨status, failed, refuses⟩ := execute_cases hk
    · rw [cleared_of_carries hm running carries, dispatch_of_carries running carries]
      exact (perform_balances carries other client now).noted (by simp [count_noteSizes])
    · have refused : e.dispatch client m now =
          ({ e with metrics := e.noteSizes.metrics.answered m.code status.isOk } : Engine).refused status := by
        rw [dispatch, handle_command running hk, refuses]
        rfl
      rw [cleared_of_refused hm (by rw [refused]; exact failed), refused]
      exact balances_of_same (by simp [Engine.refused, count_noteSizes]) rfl
  · have unset : m.reset? = none := by
      unfold Message.reset?
      split
      · next command _ => exact absurd command hk
      · rfl
    have same : (e.dispatch client m now).engine.connections = e.connections ∧
        ∀ counter, (e.dispatch client m now).engine.metrics.count counter = e.metrics.count counter := by
      simp only [dispatch, handle, running, if_true, Metrics.count_answered]
      split
      · split
        · exact ⟨rfl, fun counter => count_noteSizes _ counter⟩
        · exact ⟨rfl, fun _ => rfl⟩
      · exact ⟨rfl, fun counter => count_noteSizes _ counter⟩
      · next command => exact absurd command hk
    rw [cleared, reset?_of_message hm, unset, ite_self]
    exact balances_of_same same.2 same.1

theorem message_balances (h : e.Sound) (hm : event.message? = some (client, m, now)) :
    e.Balances (e.dispatch client m now).engine (e.accepts .register event)
      (e.accepts .deregister event + e.cleared event) := by
  obtain running | stopped := Bool.eq_false_or_eq_true e.running
  · cases hc : m.connection? with
    | some found =>
      obtain ⟨action, c⟩ := found
      have carries := Message.carries_of_connection? hc
      have cleared : e.cleared event = 0 := by
        rw [cleared_of_carries hm running carries, carries.reset?_of_ne (by simp)]
        rfl
      rw [dispatch_connection running hc, cleared]
      exact (handled_balances h hm running hc).noted (by simp [count_noteSizes])
    | none =>
      have unaccepted (action : Action) : e.accepts action event = 0 := by
        refine accepts_eq_zero fun c' now' accepted => ?_
        obtain ⟨_, _, hm', -, hc', -⟩ := accepted?_eq_some accepted
        cases hm.symm.trans hm'
        rw [hc] at hc'
        cases hc'
      rw [unaccepted, unaccepted, Nat.zero_add]
      exact other_balances hm running hc
  · have refused : e.dispatch client m now =
        ({ e with metrics := e.metrics.answered m.code false } : Engine).refused .internalFailure := by
      rw [dispatch, handle_of_not_running stopped]
      rfl
    have unaccepted (action : Action) : e.accepts action event = 0 := by
      refine accepts_eq_zero fun c' now' accepted => ?_
      obtain ⟨_, _, -, running, -⟩ := accepted?_eq_some accepted
      rw [stopped] at running
      cases running
    rw [unaccepted, unaccepted, cleared_of_refused hm (by rw [refused]; exact Status.noConfusion), refused]
    exact balances_of_same (fun _ => Metrics.count_answered ..) rfl

/-- Every event is balanced: connections come when they are registered, and go when they
are deregistered or their family is reset. -/
theorem step_balances (h : e.Sound) (event : Event) :
    e.Balances (e.step event).1 (e.accepts .register event) (e.accepts .deregister event + e.cleared event) := by
  cases hm : event.message? with
  | some sent =>
    obtain ⟨client, m, now⟩ := sent
    rw [step_of_message hm]
    exact message_balances h hm
  | none =>
    have silent (action : Action) : e.accepts action event = 0 := by
      simp only [accepts, accepted?, hm, Option.bind_none, Option.any_none, Bool.false_eq_true, if_false]
    have cleared : e.cleared event = 0 := by
      rw [Engine.cleared, Engine.reset?, hm]
      rfl
    rw [silent, silent, cleared]
    induction event using Event.byMessage with
    | message event client m now sent => rw [sent] at hm; cases hm
    | malformed client octets now error hd =>
      rw [step_of_malformed hd]
      exact ⟨0, 0, (UInt64.add_zero _).symm, (UInt64.add_zero _).symm, rfl⟩
    | age now => exact e.age_balances now
    | packet f key octets now => exact e.account_balances f key octets now
    | acquire client =>
      obtain ⟨_, acquired⟩ := acquire_writes e client
      rw [acquired]
      exact balances_of_same (fun _ => rfl) rfl
    | shutdown =>
      simp only [step, shutdown]
      split
      · exact balances_of_same (fun counter => count_noteSizes _ counter) rfl
      · exact balances_of_same (fun _ => rfl) rfl
    | health | unreachable | release => exact balances_of_same (fun _ => rfl) rfl
    | register | unregister => exact balances_of_same (fun counter => count_noteSizes _ counter) rfl

theorem run_balances (h : e.Reachable) (history : List Event) :
    e.Balances (e.run history) (e.total (accepts .register) history)
      (e.total (accepts .deregister) history + e.total cleared history) := by
  induction history generalizing e with
  | nil => exact balances_of_same (fun _ => rfl) rfl
  | cons event history ih =>
    have both := (step_balances h.sound event).trans (ih (h.step event))
    rw [run_cons, total, total, total]
    convert both using 1
    omega

theorem tracked_ofConfig {config : Config} (h : ofConfig config = .ok e) : e.tracked = 0 := by
  obtain ⟨interfaces, -, rfl⟩ := ofConfig_eq_ok h
  rfl

theorem count_ofConfig {config : Config} (h : ofConfig config = .ok e) (counter : Counter) :
    e.metrics.count counter = 0 := by
  obtain ⟨interfaces, -, rfl⟩ := ofConfig_eq_ok h
  cases counter <;> rfl

/-! ## Main result -/

/-- **Connections are accounted for.** Whatever a new engine goes through, the connections
that were registered are those that are tracked, those that were deregistered, those that
went with their route, those that were idle, and those that a reset of their family found.
The counters hold the third and the fourth of these numbers, so by what the engine itself
tells the numbers agree modulo 2^64. -/
theorem connections_accounted {config : Config} {start : Engine} (fresh : ofConfig config = .ok start)
    (history : List Event) :
    let e := start.run history
    let registered := start.total (accepts .register) history
    let deregistered := start.total (accepts .deregister) history
    (∃ cascaded aged : Nat,
      e.metrics.count .cascaded = .ofNat cascaded ∧ e.metrics.count .aged = .ofNat aged ∧
        registered = e.tracked + deregistered + cascaded + aged + start.total cleared history) ∧
      (.ofNat registered : UInt64) =
        .ofNat e.tracked + .ofNat deregistered + e.metrics.count .cascaded + e.metrics.count .aged +
          .ofNat (start.total cleared history) := by
  intro e registered deregistered
  obtain ⟨cascaded, aged, hc, ha, size⟩ := run_balances (.start fresh) history
  rw [count_ofConfig fresh, UInt64.zero_add] at hc ha
  rw [tracked_ofConfig fresh, Nat.zero_add] at size
  have account : registered = e.tracked + deregistered + cascaded + aged + start.total cleared history := by
    refine size.trans ?_
    show e.tracked + (deregistered + _) + _ + _ = _
    omega
  refine ⟨⟨cascaded, aged, hc, ha, account⟩, ?_⟩
  rw [account, hc, ha]
  simp only [UInt64.ofNat_add]

namespace Small

/-- After `crossing` connections go in each way: one is deregistered, one goes with its
route, one is there when its family is reset, and the IPv6 one is idle. The last one
stays. -/
def leaving : List Event :=
  crossing ++
    [send (.connection .v4) .deregister (.connection (connection 2000 8 8)),
      send (.connection .v4) .register (.connection (connection 3000 8 8)), deregister 7, reset, .age 3600000000,
      send .route .register (.route (route 7)),
      send (.connection .v4) .register (.connection (connection 1000 7 7))]

end Small

theorem connections_accounted_small :
    let start := Small.start
    let e := start.run Small.leaving
    ofConfig Small.config = .ok start ∧ start.total (accepts .register) Small.leaving = 5 ∧ e.tracked = 1 ∧
      start.total (accepts .deregister) Small.leaving = 1 ∧ e.metrics.count .cascaded = 1 ∧ e.metrics.count .aged = 1 ∧
      start.total cleared Small.leaving = 1 ∧
      UInt64.ofNat (start.total (accepts .register) Small.leaving) =
        .ofNat e.tracked + .ofNat (start.total (accepts .deregister) Small.leaving) + e.metrics.count .cascaded +
          e.metrics.count .aged + .ofNat (start.total cleared Small.leaving) := by
  intro start e
  obtain ⟨-, modulo⟩ := @connections_accounted Small.config Small.start rfl Small.leaving
  exact ⟨rfl, by decide +kernel, by decide +kernel, by decide +kernel, by decide +kernel, by decide +kernel,
    by decide +kernel, modulo⟩

end Engine

end ControlPlane
