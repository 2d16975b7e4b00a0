/-
What was found is there when it is taken.

Several operations look something up, do other things, and then take or change what they
found; each has an answer for the case that it is gone meanwhile. In a sound engine it
never is (`Sound.present`), and soundness also holds between the removals of a reset. So
none of these answers is ever given, and an engine that runs never answers that it failed
(`failure_iff_stopped`).
-/
import ControlPlane.Proofs.Engine.Checks
import ControlPlane.Proofs.Engine.Removal
import ControlPlane.Proofs.Tracking.Addressing

namespace ControlPlane.Engine

open Wire (Message)

variable {e : Engine} {client : ClientId} {m : Message} {now : Nat} {f : Family} {id : UInt32} {s : Status}

/-! ## What is found and taken -/

/-- Whatever an operation finds is there when it comes back for it. -/
structure Present (e : Engine) : Prop where
  /-- The connection that a record leads to can be changed, and taken away. -/
  found : ∀ f protocol orig seq, (e.connections.get f).find? protocol orig = some seq →
    ∃ entry, (e.connections.get f).get? seq = some entry ∧ ((e.connections.get f).remove seq).1 = some entry
  /-- A connection that goes with its route is there when its turn comes. -/
  dependent : ∀ id done f left, families = done ++ f :: left →
    ∀ before seq after, ((done.foldl (cascade id) e).connections.get f).usingRoute id = before ++ seq :: after →
      ∃ entry, (((before.foldl (cascadeOne f) (done.foldl (cascade id) e)).connections.get f).remove seq).1 =
        some entry
  /-- A route that is dropped is there when its connections are gone. -/
  dropped : ∀ id r, e.routes.get? id = some r →
    ((families.foldl (cascade id) e).routes.remove id).1 = some r ∧ (e.dropRoute id).2.1 = .ok
  /-- An idle connection is there when its turn comes. -/
  idle : ∀ f now before seq after, (e.connections.get f).expired e.timeouts now = before ++ seq :: after →
    ∃ entry, (((takeConnections f e before).1.connections.get f).remove seq).1 = some entry
  /-- A packet that is counted for a connection is counted for its direction's route. -/
  accounted : ∀ f key octets now, (e.account f key octets now).2 = true →
    ∃ d entry r, (e.connections.get f).lookup? key = some (d, entry) ∧ r.family = f ∧
      e.routes.get? (entry.connection.tuple d).routeId = some r ∧
      (e.account f key octets now).1.routes.get? (entry.connection.tuple d).routeId =
        some { r with hits := r.hits + 1 }

/-- Of distinct connections that are stored, each is left by the removal of those before
it. -/
theorem remove_removeAll {t : ConnectionTable} {seqs before after : List Nat} {seq : Nat} (distinct : seqs.Nodup)
    (stored : ∀ n ∈ seqs, ∃ entry, t.get? n = some entry) (split : seqs = before ++ seq :: after) :
    ∃ entry, ((t.removeAll before).remove seq).1 = some entry := by
  have fresh : seq ∉ before := by
    rw [split, List.nodup_append'] at distinct
    exact fun earlier => distinct.2.2 earlier List.mem_cons_self
  obtain ⟨entry, there⟩ := stored seq (by simp [split])
  exact ⟨entry, by rw [ConnectionTable.fst_remove, ConnectionTable.get?_removeAll, if_neg fresh, there]⟩

theorem dependent_stored (e : Engine) (f : Family) {before after : List Nat} {seq : Nat}
    (split : (e.connections.get f).usingRoute id = before ++ seq :: after) :
    ∃ entry, (((before.foldl (cascadeOne f) e).connections.get f).remove seq).1 = some entry := by
  have distinct := (e.connections.get f).usingRoute_nodup id
  have stored : ∀ n ∈ (e.connections.get f).usingRoute id, ∃ entry, (e.connections.get f).get? n = some entry := by
    intro n through
    obtain ⟨entry, there, -⟩ := ConnectionTable.mem_usingRoute.1 through
    exact ⟨entry, there⟩
  have front : ∀ n ∈ before, ∃ entry, (e.connections.get f).get? n = some entry :=
    fun n earlier => stored n (by simp [split, earlier])
  rw [foldl_cascadeOne e (List.nodup_append'.1 (split ▸ distinct)).1 front]
  show ∃ entry, (((e.withConnections f _).connections.get f).remove seq).1 = some entry
  rw [get_withConnections, if_pos rfl]
  exact remove_removeAll distinct stored split

theorem idle_stored (e : Engine) (f : Family) {before after : List Nat} {seq : Nat}
    (split : (e.connections.get f).expired e.timeouts now = before ++ seq :: after) :
    ∃ entry, (((takeConnections f e before).1.connections.get f).remove seq).1 = some entry := by
  rw [fst_takeConnections, get_withConnections, if_pos rfl]
  refine remove_removeAll ((e.connections.get f).expired_nodup e.timeouts now) (fun n expired => ?_) split
  obtain ⟨x, idle, rfl⟩ := List.mem_map.1 expired
  exact ⟨x.2, Sequenced.mem_entries_iff.1 (List.mem_filter.1 idle).1⟩

theorem Sound.found (h : e.Sound) {protocol : UInt16} {orig : Wire.Tuple} {seq : Nat}
    (found : (e.connections.get f).find? protocol orig = some seq) :
    ∃ entry, (e.connections.get f).get? seq = some entry := by
  obtain ⟨entry, stored, -⟩ := (h.flows f).find?_eq_some_iff.1 found
  exact ⟨entry, stored⟩

theorem Sound.accounted (h : e.Sound) {key : FlowKey} {octets : UInt64}
    (known : (e.account f key octets now).2 = true) :
    ∃ d entry r, (e.connections.get f).lookup? key = some (d, entry) ∧ r.family = f ∧
      e.routes.get? (entry.connection.tuple d).routeId = some r ∧
      (e.account f key octets now).1.routes.get? (entry.connection.tuple d).routeId =
        some { r with hits := r.hits + 1 } := by
  obtain ⟨-, missed⟩ | ⟨seq, d, entry, leads, stored, counted⟩ := account_cases e f key octets now
  · rw [missed] at known
    cases known
  · have looked := ConnectionTable.lookup?_eq_some.2 ⟨seq, leads, stored⟩
    obtain ⟨-, forwards, -⟩ := (h.flows f).lookup?_eq_some_iff.1 looked
    obtain ⟨r, hr, family⟩ := routeServes_iff.1 (h.served f seq entry stored d forwards)
    refine ⟨d, entry, r, looked, family, hr, ?_⟩
    rw [counted, h.ids.get?_modify, if_pos rfl, hr, Option.map_some]

/-- In a sound engine whatever is found is there. -/
theorem Sound.present (h : e.Sound) : e.Present where
  found f protocol orig seq found := by
    obtain ⟨entry, stored⟩ := h.found found
    exact ⟨entry, stored, by rw [ConnectionTable.fst_remove, stored]⟩
  dependent id done f _ _ before seq after split := dependent_stored (done.foldl (cascade id) e) f split
  dropped id r hr := by
    obtain ⟨seq, -, -, removed⟩ := RouteTable.remove_of_get? hr
    rw [routes_cascades, removed, dropRoute_of_get? hr]
    exact ⟨rfl, rfl⟩
  idle f now before seq after split := idle_stored e f split
  accounted f key octets now known := h.accounted known

/-! ## Between the removals of a reset -/

theorem fst_dropRoutes_append (e : Engine) (ids ids' : List UInt32) :
    (e.dropRoutes (ids ++ ids')).1 = ((e.dropRoutes ids).1.dropRoutes ids').1 := by
  induction ids generalizing e with
  | nil => rfl
  | cons id ids ih => rw [List.cons_append, fst_dropRoutes_cons, ih, fst_dropRoutes_cons]

/-- The engine in a reset of a family, when the routes of some ids are dropped. -/
def resetting (e : Engine) (f : Family) (ids : List UInt32) : Engine :=
  ((e.withConnections f (e.connections.get f).clear).dropRoutes ids).1

theorem Sound.resetting (h : e.Sound) (f : Family) (ids : List UInt32) : (e.resetting f ids).Sound := by
  have cleared : (e.withConnections f (e.connections.get f).clear).Sound := h.edit (.clearConnections f)
  exact (dropRoutes_edits _ ids).sound cleared

/-- A route whose turn comes in a reset is stored. -/
theorem Sound.get?_resetting (h : e.Sound) {before after : List UInt32}
    (split : e.routes.ids (some f) = before ++ id :: after) :
    ∃ r, (e.resetting f before).routes.get? id = some r := by
  have cleared : (e.withConnections f (e.connections.get f).clear).Sound := h.edit (.clearConnections f)
  have distinct : (e.routes.ids (some f)).Nodup :=
    h.ids.ids_nodup.sublist (List.Sublist.map _ List.filter_sublist)
  have fresh : id ∉ before := by
    rw [split, List.nodup_append'] at distinct
    exact fun earlier => distinct.2.2 earlier List.mem_cons_self
  obtain ⟨r, hr, -⟩ := h.ids.mem_ids_iff.1 (by simp [split] : id ∈ e.routes.ids (some f))
  refine ⟨r, (h.resetting f before).ids.get?_eq_some_iff.2 ?_⟩
  obtain ⟨stored, rfl⟩ := h.ids.get?_eq_some_iff.1 hr
  obtain ⟨seq, stored⟩ := Sequenced.mem_values_iff.1 stored
  refine ⟨Sequenced.mem_values_iff.2 ⟨seq, Sequenced.mem_entries_iff.1 ?_⟩, rfl⟩
  rw [Engine.resetting, entries_dropRoutes cleared.ids]
  exact List.mem_filter.2 ⟨Sequenced.mem_entries_iff.2 stored, by simpa using fresh⟩

/-! ## The errors of each operation -/

theorem addRoute_error {r : Wire.Route} {owner : Option ClientId} (h : e.addRoute r owner = .error s) :
    s = .alreadyRegistered ∨ s = .wrongParam := by
  unfold addRoute at h
  split at h
  · exact .inl (Except.error.inj h).symm
  · split at h
    · exact .inr (Except.error.inj h).symm
    · exact .inr (Except.error.inj h).symm
    · have refusal := map_eq_error_iff.1 h
      unfold RouteTable.add at refusal
      split at refusal
      · exact .inl (Except.error.inj refusal).symm
      · cases refusal

theorem addConnection_error {c : Wire.Connection} (h : e.addConnection c now = .error s) :
    s = .wrongParam ∨ s = .alreadyRegistered := by
  unfold addConnection at h
  split at h
  · have refusal := map_eq_error_iff.1 h
    unfold ConnectionTable.add at refusal
    split at refusal
    · exact .inl (Except.error.inj refusal).symm
    · split at refusal
      · exact .inl (Except.error.inj refusal).symm
      · split at refusal
        · exact .inr (Except.error.inj refusal).symm
        · cases refusal
  · exact .inl (Except.error.inj h).symm

theorem Sound.modifyFound_error (h : e.Sound) {c : Wire.Connection} {g : Tracked → Tracked}
    (refusal : e.modifyFound c g = .error s) : s = .entryNotFound := by
  simp only [modifyFound] at refusal
  split at refusal
  · exact (Except.error.inj refusal).symm
  · next found =>
    obtain ⟨entry, stored⟩ := h.found found
    rw [stored] at refusal
    cases refusal

theorem Sound.removeConnection_error (h : e.Sound) {c : Wire.Connection} (refusal : e.removeConnection c = .error s) :
    s = .entryNotFound := by
  simp only [removeConnection] at refusal
  split at refusal
  · exact (Except.error.inj refusal).symm
  · next found =>
    obtain ⟨entry, stored⟩ := h.found found
    split at refusal
    · next gone =>
      have taken := congrArg Prod.fst gone
      rw [ConnectionTable.fst_remove, stored] at taken
      cases taken
    · cases refusal

theorem setTimeout_error {t : Wire.IdleTimeout} (h : e.setTimeout t = .error s) : s = .wrongParam := by
  unfold setTimeout at h
  split at h
  · exact (Except.error.inj h).symm
  · have refusal := map_eq_error_iff.1 h
    unfold IdleTimeouts.set at refusal
    split at refusal
    · cases refusal
    · split at refusal
      · cases refusal
      · split at refusal
        · cases refusal
        · exact (Except.error.inj refusal).symm

theorem acquire_error (h : e.acquire client = .error s) : s = .alreadyLocked := by
  have refusal := map_eq_error_iff.1 h
  unfold Session.lock at refusal
  split at refusal
  · cases refusal
  · exact (Except.error.inj refusal).symm

theorem unlock_error {session : Session} (h : session.unlock client = .error s) :
    s = .notLocked ∨ s = .wrongSession := by
  unfold Session.unlock at h
  split at h
  · exact .inl (Except.error.inj h).symm
  · split at h
    · cases h
    · exact .inr (Except.error.inj h).symm

theorem update_error {t : InterfaceTable} {i : Interface} (h : t.update i = .error s) : s = .entryNotFound := by
  unfold InterfaceTable.update at h
  split at h
  · exact (Except.error.inj h).symm
  · cases h

/-! ## Answers -/

theorem performed_settled {x : Except Status Engine} (h : ∀ s, x = .error s → s ∈ Status.performed) :
    (e.settled x).reply.status ∈ Status.performed := by
  cases x with
  | ok _ => exact List.mem_cons_self
  | error s => exact h s rfl

theorem performed_list (e : Engine) (r : Resource) (action : Action) :
    (e.list r action).reply.status ∈ Status.performed := by
  obtain status | status := status_list e r action <;> rw [status] <;> decide

theorem performed_handleRoute {action : Action} (supported : action ∈ Command.route.actions) (e : Engine)
    (client : ClientId) (r : Wire.Route) : (e.handleRoute client action r).reply.status ∈ Status.performed := by
  cases action with
  | register =>
    refine performed_settled fun s refusal => ?_
    obtain rfl | rfl := addRoute_error refusal <;> decide
  | deregister =>
    show (e.dropRoute r.id).2.1 ∈ Status.performed
    rw [status_dropRoute]
    split <;> decide
  | query | queryCont =>
    rw [handleRoute_list e client r rfl]
    exact performed_list e _ _
  | keepAlive | removed | update => simp [Command.actions] at supported

theorem Sound.performed_handleConnection (h : e.Sound) {action : Action} (c : Wire.Connection)
    (supported : action ∈ (Command.connection c.family).actions) (now : Nat) :
    (e.handleConnection action c now).reply.status ∈ Status.performed := by
  cases action with
  | register =>
    refine performed_settled fun s refusal => ?_
    obtain rfl | rfl := addConnection_error refusal <;> decide
  | deregister =>
    refine performed_settled fun s refusal => ?_
    rw [h.removeConnection_error refusal]
    decide
  | update | keepAlive =>
    refine performed_settled fun s refusal => ?_
    rw [h.modifyFound_error refusal]
    decide
  | query | queryCont =>
    rw [handleConnection_list e c now rfl]
    exact performed_list e _ _
  | removed => simp [Command.actions] at supported

theorem performed_handleInterface {action : Action} (supported : action ∈ Command.interface.actions) (e : Engine)
    (client : ClientId) (i : Interface) :
    (e.handleInterface client action i).reply.status ∈ Status.performed := by
  cases action with
  | update =>
    rw [handleInterface]
    split
    · refine performed_settled fun s refusal => ?_
      rw [update_error (map_eq_error_iff.1 refusal)]
      decide
    · show Status.wrongSession ∈ Status.performed
      decide
  | query | queryCont =>
    rw [handleInterface_list e client i rfl]
    exact performed_list e _ _
  | register | deregister | keepAlive | removed => simp [Command.actions] at supported

theorem Sound.performed_perform (h : e.Sound) {command : Command} {action : Option Action} {r : Wire.Record}
    (takes : command.Takes action r) (client : ClientId) (now : Nat) :
    (e.perform client command action r now).reply.status ∈ Status.performed := by
  cases takes with
  | route supported r => exact performed_handleRoute supported e client r
  | connection c supported => exact h.performed_handleConnection c supported now
  | interface supported i => exact performed_handleInterface supported e client i
  | reset f => exact List.mem_cons_self
  | setTimeout =>
    refine performed_settled fun s refusal => ?_
    rw [setTimeout_error refusal]
    decide
  | lockSession =>
    refine performed_settled fun s refusal => ?_
    rw [acquire_error refusal]
    decide
  | unlockSession =>
    refine performed_settled fun s refusal => ?_
    obtain rfl | rfl := unlock_error (map_eq_error_iff.1 refusal) <;> decide

/-- A command is answered by an objection to it, or with what one can come to that is
carried out. -/
theorem Sound.status_execute (h : e.Sound) (hk : m.kind = .command) (client : ClientId) (now : Nat) :
    (∃ o, m.objection? = some o ∧ (e.execute client m now).reply.status = o.status) ∨
      m.objection? = none ∧ (e.execute client m now).reply.status ∈ Status.performed := by
  cases ho : m.objection? with
  | some o =>
    refine .inl ⟨o, rfl, ?_⟩
    rw [execute_of_objection hk ho]
    rfl
  | none =>
    obtain ⟨command, action, r, carries, takes⟩ := carries_of_unobjected hk ho
    refine .inr ⟨rfl, ?_⟩
    rw [execute_of_carries carries]
    exact h.performed_perform takes client now

theorem Sound.dispatch_ne_failure (h : e.Sound) (running : e.running = true) (client : ClientId) (m : Message)
    (now : Nat) : (e.dispatch client m now).reply.status ≠ .internalFailure := by
  show (e.handle client m now).reply.status ≠ .internalFailure
  rw [handle, if_pos running]
  split
  · split
    · exact Status.noConfusion
    · exact Status.noConfusion
  · exact Status.noConfusion
  · next hk =>
    intro failed
    obtain ⟨o, -, status⟩ | ⟨-, performed⟩ := h.status_execute hk client now
    · rw [failed] at status
      cases o <;> cases status
    · rw [failed] at performed
      exact absurd performed (by decide)

/-! ## Main result -/

/-- **A running engine never fails.** In a reachable engine a message of any kind is
answered with `Status.internalFailure` just when the engine was shut down. Whatever an
operation finds is there when it comes back for it, and so it is at each removal of a
reset, where the route whose turn it is is stored. -/
theorem failure_iff_stopped {e : Engine} (h : e.Reachable) :
    (∀ client m now, (e.dispatch client m now).reply.status = .internalFailure ↔ e.running = false) ∧
      e.Present ∧
      ∀ f before id after, e.routes.ids (some f) = before ++ id :: after →
        (e.resetting f before).Present ∧ (∃ r, (e.resetting f before).routes.get? id = some r) ∧
          (e.reset f).1 = (((e.resetting f before).dropRoute id).1.dropRoutes after).1 := by
  have sound := h.sound
  refine ⟨fun client m now => ?_, sound.present, fun f before id after split => ⟨?_, ?_, ?_⟩⟩
  · constructor
    · intro failed
      by_contra running
      exact sound.dispatch_ne_failure (Bool.not_eq_false _ ▸ running) client m now failed
    · intro stopped
      rw [dispatch, handle_of_not_running stopped]
      rfl
  · exact (sound.resetting f before).present
  · exact sound.get?_resetting split
  · show ((e.withConnections f (e.connections.get f).clear).dropRoutes (e.routes.ids (some f))).1 = _
    rw [split, fst_dropRoutes_append, fst_dropRoutes_cons]
    rfl

/-- A route through which two connections go is dropped, and its family is reset. -/
theorem failure_iff_stopped_small :
    let e := Small.engine
    let drop := Small.message .route .deregister (.route (.ofId 7))
    e.Reachable ∧ (e.connections.get .v4).usingRoute 7 = [1] ++ 2 :: [] ∧
      (∃ entry, ((([1].foldl (cascadeOne .v4) e).connections.get .v4).remove 2).1 = some entry) ∧
      (e.dropRoute 7).2.1 = .ok ∧
      (e.dispatch Small.client drop 0).reply.status ≠ .internalFailure ∧
      (e.step .shutdown).1.Reachable ∧
      ((e.step .shutdown).1.dispatch Small.client drop 0).reply.status = .internalFailure ∧
      e.routes.ids (some .v4) = [] ++ 7 :: [] ∧ ∃ r, (e.resetting .v4 []).routes.get? 7 = some r := by
  dsimp only
  have through : (Small.engine.connections.get .v4).usingRoute 7 = [1] ++ 2 :: [] := by decide +kernel
  have ids : Small.engine.routes.ids (some .v4) = [] ++ 7 :: [] := by decide +kernel
  obtain ⟨answers, present, resets⟩ := failure_iff_stopped Small.engine_reachable
  obtain ⟨stopped, -, -⟩ := failure_iff_stopped (Small.engine_reachable.step .shutdown)
  obtain ⟨r, found⟩ : ∃ r, Small.engine.routes.get? 7 = some r := Option.isSome_iff_exists.1 (by decide +kernel)
  refine ⟨Small.engine_reachable, through, ?_, (present.dropped 7 r found).2, ?_, Small.engine_reachable.step _, ?_,
    ids, (resets .v4 [] 7 [] ids).2.1⟩
  · have turn := present.dependent 7 [] .v4 [.v6] rfl [1] 2 []
    simp only [List.foldl_nil] at turn
    exact turn through
  · intro failed
    have running := (answers Small.client _ 0).1 failed
    exact absurd running (by decide +kernel)
  · exact (stopped Small.client _ 0).2 (by decide +kernel)

end ControlPlane.Engine
