/-
A message that is not answered with `Status.ok` changes nothing but what it is
counted under.

Most handlers refuse before they change anything. A route that is dropped was found
before its connections went away, so its last step cannot fail
(`dropRoute_of_get?`); and a listing that is at its end still moves its cursor.
-/
import ControlPlane.Proofs.Engine.Enumeration
import ControlPlane.Proofs.Engine.Sizes

namespace ControlPlane.Engine

variable {e : Engine} {client : ClientId} {m : Wire.Message} {now : Nat} {action : Action}

theorem settled_refused {x : Except Status Engine} (h : (e.settled x).reply.status ≠ .ok) :
    ∃ status, e.settled x = e.refused status := by
  cases x with
  | ok _ => exact absurd rfl h
  | error status => exact ⟨status, rfl⟩

theorem handleRoute_refused {r : Wire.Route} (hl : action.lists = false)
    (h : (e.handleRoute client action r).reply.status ≠ .ok) :
    ∃ status, e.handleRoute client action r = e.refused status := by
  cases action with
  | register => exact settled_refused h
  | deregister =>
    simp only [handleRoute] at h ⊢
    cases hg : e.routes.get? r.id with
    | none =>
      rw [dropRoute_of_get?_eq_none hg]
      exact ⟨.entryNotFound, rfl⟩
    | some _ =>
      rw [dropRoute_of_get? hg] at h
      exact absurd rfl h
  | query | queryCont => cases hl
  | keepAlive | removed | update => exact ⟨_, rfl⟩

theorem handleConnection_refused {c : Wire.Connection} (hl : action.lists = false)
    (h : (e.handleConnection action c now).reply.status ≠ .ok) :
    ∃ status, e.handleConnection action c now = e.refused status := by
  cases action with
  | register | deregister | update | keepAlive => exact settled_refused h
  | query | queryCont => cases hl
  | removed => exact ⟨_, rfl⟩

theorem handleInterface_refused {i : Interface} (hl : action.lists = false)
    (h : (e.handleInterface client action i).reply.status ≠ .ok) :
    ∃ status, e.handleInterface client action i = e.refused status := by
  cases action with
  | update =>
    rw [handleInterface] at h ⊢
    by_cases held : e.session.isHeldBy client
    · rw [if_pos held] at h ⊢
      exact settled_refused h
    · rw [if_neg held]
      exact ⟨.wrongSession, rfl⟩
  | query | queryCont => cases hl
  | register | deregister | keepAlive | removed => exact ⟨_, rfl⟩

/-- A command that asks for no listing and fails does nothing. -/
theorem perform_refused {command : Command} {action : Option Action} {r : Wire.Record}
    (hm : m.Carries command action r) (hn : m.asks? = none)
    (h : (e.perform client command action r now).reply.status ≠ .ok) :
    ∃ status, e.perform client command action r now = e.refused status := by
  have lists := hm.lists_eq_false hn
  unfold perform at h ⊢
  split at h
  · exact handleRoute_refused (lists _ _ rfl rfl) h
  · exact handleConnection_refused (lists _ _ rfl rfl) h
  · exact absurd rfl h
  · exact settled_refused h
  · exact settled_refused h
  · exact settled_refused h
  · exact handleInterface_refused (lists _ _ rfl rfl) h
  · exact ⟨_, rfl⟩

/-- A question that gets no entry ends its listing. -/
theorem list_refused {r : Resource} (h : (e.list r action).reply.status ≠ .ok) :
    e.list r action = (e.withCursor r .idle).refused .entryNotFound := by
  unfold list at h ⊢
  split at h
  · exact absurd rfl h
  · rfl

/-- What the engine does with a message that it does not answer with
`Status.ok`: it refuses it, after a listing may have ended. -/
theorem handle_refused (hn : e.Noted) (h : (e.handle client m now).reply.status ≠ .ok) :
    ∃ status cursors, e.handle client m now = ({ e with cursors } : Engine).refused status := by
  obtain hr | hr := Bool.eq_false_or_eq_true e.running
  · rw [handle, if_pos hr] at h ⊢
    split at h
    · split at h
      · exact absurd rfl h
      · exact ⟨.wrongSize, e.cursors, rfl⟩
    · exact absurd rfl h
    · next hk =>
      obtain ⟨command, action, record, hm⟩ | ⟨status, -, hs⟩ := execute_cases hk
      · rw [execute_of_carries hm] at h ⊢
        cases ha : m.asks? with
        | none =>
          obtain ⟨status, hs⟩ := perform_refused hm ha h
          rw [hs]
          exact ⟨status, e.cursors, by simp only [refused, hn.noteSizes_eq]⟩
        | some asked =>
          obtain ⟨r, a⟩ := asked
          obtain ⟨hl, record', hm'⟩ := Wire.Message.asks?_eq_some ha
          obtain ⟨rfl, rfl, rfl⟩ := hm.unique hm'
          rw [perform_of_asks hl hm] at h ⊢
          rw [list_refused h]
          have noted : (e.withCursor r .idle).Noted := by cases r <;> exact hn
          refine ⟨.entryNotFound, (e.withCursor r .idle).cursors, ?_⟩
          simp only [refused, noted.noteSizes_eq]
          cases r <;> rfl
      · rw [hs]
        exact ⟨status, e.cursors, by simp only [refused, hn.noteSizes_eq]⟩
  · rw [handle_of_not_running hr]
    exact ⟨.internalFailure, e.cursors, rfl⟩

/-- **A message that fails changes nothing.** In a reachable engine a message of any
kind that is not answered with `Status.ok` brings no events, and everything stays as
it was, but that the message is counted under its code, and that a question moves
the cursor of what it asks for. -/
theorem failed_unchanged {e : Engine} (h : e.Reachable) (client : ClientId) (m : Wire.Message) (now : Nat)
    (hs : (e.dispatch client m now).reply.status ≠ .ok) :
    let o := e.dispatch client m now
    o.events = [] ∧
      o.engine = { e with cursors := o.engine.cursors, metrics := e.metrics.answered m.code false } ∧
      (∀ r, (∀ action, m.asks? ≠ some (r, action)) → o.engine.cursor r = e.cursor r) ∧
      o.engine.metrics.sizes = e.metrics.sizes ∧
      ∀ code, code ≠ m.code → o.engine.metrics.command code = e.metrics.command code := by
  intro o
  obtain ⟨status, cursors, ho⟩ := handle_refused h.noted hs
  have failed : status.isOk = false := by
    have : status ≠ .ok := by
      rw [dispatch, ho] at hs
      exact hs
    simpa [Status.isOk] using this
  have answered : o = ⟨{ e with cursors, metrics := e.metrics.answered m.code false }, .ofStatus status, []⟩ := by
    have refusal : o = ⟨{ e with cursors, metrics := e.metrics.answered m.code status.isOk },
        .ofStatus status, []⟩ := by
      simp only [o, dispatch, ho]
      rfl
    rw [refusal, failed]
  refine ⟨by rw [answered], by rw [answered], fun r hr => ?_, by rw [answered]; rfl, fun code hc => ?_⟩
  · exact step_cursor e (.message client m now) hr
  · rw [answered]
    exact (Metrics.command_answered ..).trans (if_neg hc.symm)

/-- A second route of an id is refused. -/
theorem failed_unchanged_small :
    let m := Small.message .route .register (.route (Small.route 7))
    let o := Small.engine.dispatch Small.client m 0
    Small.engine.Reachable ∧ o.reply.status = .alreadyRegistered ∧ o.events = [] ∧
      o.engine.routes.routes.entries = Small.engine.routes.routes.entries ∧
      o.engine.metrics.command m.code = ⟨2, 1⟩ := by
  intro m o
  have status : o.reply.status = .alreadyRegistered := by decide +kernel
  obtain ⟨events, engine, -⟩ := failed_unchanged Small.engine_reachable Small.client m 0 (by
    rw [status]
    decide)
  refine ⟨Small.engine_reachable, status, events, ?_, by decide +kernel⟩
  rw [engine]

end ControlPlane.Engine
