/-
A listing that goes on while its table changes.

The cursor stands behind a number, and numbers are only given out behind all former
ones. So whatever happens between two questions, every entry that is stored up to
the cursor was given already (`Underway`), and when the listing comes to its end
none is missing.
-/
import ControlPlane.Proofs.Engine.Integrity

namespace ControlPlane.Engine

variable {e e' : Engine} {f : Family} {r : Resource} {event : Event}

/-! ## The tables between two questions -/

theorem grows_withRoutes {t : RouteTable} (h : e.routes.routes.Grows t.routes) (r : Resource) :
    (e.records r .query).Grows (({ e with routes := t } : Engine).records r .query) := by
  cases r with
  | routes => exact h.map _
  | connections | interfaces => exact .refl _

theorem grows_withConnections {t : ConnectionTable}
    (h : (e.connections.get f).connections.Grows t.connections) (r : Resource) :
    (e.records r .query).Grows ((e.withConnections f t).records r .query) := by
  cases r with
  | routes | interfaces => exact .refl _
  | connections g =>
    simp only [records, get_withConnections]
    split
    · next hg => exact hg ▸ h.map _
    · exact .refl _

/-- Every edit takes numbers away or gives out new ones. -/
theorem Edit.grows (h : Edit e e') (r : Resource) : (e.records r .query).Grows (e'.records r .query) := by
  cases h with
  | note => cases r <;> exact .refl _
  | addRoute _ _ ht =>
    obtain ⟨-, rfl⟩ := RouteTable.add_eq_ok_iff.1 ht
    exact grows_withRoutes (Sequenced.grows_push ..) r
  | @removeRoute id _ =>
    refine grows_withRoutes ?_ r
    unfold RouteTable.remove
    split
    · exact .refl _
    · exact Sequenced.grows_erase ..
  | hitRoute id =>
    refine grows_withRoutes ?_ r
    unfold RouteTable.modify
    split
    · exact .refl _
    · exact Sequenced.grows_modify ..
  | addConnection _ ht =>
    obtain ⟨-, -, -, -, rfl⟩ := ConnectionTable.add_eq_ok_iff.1 ht
    exact grows_withConnections (Sequenced.grows_push ..) r
  | removeConnection f seq =>
    refine grows_withConnections ?_ r
    rw [ConnectionTable.connections_remove]
    exact Sequenced.grows_erase ..
  | editConnection f seq _ => exact grows_withConnections (Sequenced.grows_modify ..) r
  | clearConnections f => exact grows_withConnections (Sequenced.grows_clear _) r
  | @setFlags i t ht =>
    unfold InterfaceTable.update at ht
    split at ht
    · cases ht
    · cases ht
      cases r with
      | routes | connections => exact .refl _
      | interfaces => exact (Sequenced.grows_modify ..).map _

theorem Edits.grows (h : Edits e e') (r : Resource) : (e.records r .query).Grows (e'.records r .query) := by
  induction h with
  | refl => exact .refl _
  | tail _ he ih => exact ih.trans (he.grows r)

theorem records_withCursor (e : Engine) (r : Resource) (c : Cursor) (r' : Resource) (action : Action) :
    (e.withCursor r c).records r' action = e.records r' action := by
  cases r <;> rfl

/-- So does every event. -/
theorem step_grows (e : Engine) (event : Event) (r : Resource) :
    (e.records r .query).Grows ((e.step event).1.records r .query) := by
  obtain ⟨r', action, c, metrics, -, -, hs⟩ | ⟨_, _, _, _, -, edits⟩ := step_cases e event
  · have same : (e.step event).1.records r .query = e.records r .query := by
      rw [hs, ← records_withCursor e r' c r .query]
      rfl
    rw [same]
    exact .refl _
  · exact edits.grows r

theorem run_grows (e : Engine) (history : List Event) (r : Resource) :
    (e.records r .query).Grows ((e.run history).records r .query) := by
  induction history generalizing e with
  | nil => exact .refl _
  | cons event history ih => exact (step_grows e event r).trans (ih _)

theorem routes_grow (e : Engine) (event : Event) : e.routes.routes.Grows (e.step event).1.routes.routes :=
  (step_grows e event .routes).of_map

theorem run_routes_grow (e : Engine) (history : List Event) :
    e.routes.routes.Grows (e.run history).routes.routes :=
  (run_grows e history .routes).of_map

theorem connections_grow (e : Engine) (event : Event) (f : Family) :
    (e.connections.get f).connections.Grows ((e.step event).1.connections.get f).connections :=
  (step_grows e event (.connections f)).of_map

theorem run_connections_grow (e : Engine) (history : List Event) (f : Family) :
    (e.connections.get f).connections.Grows ((e.run history).connections.get f).connections :=
  (run_grows e history (.connections f)).of_map

/-- A cursor moves only when its listing is asked for. -/
theorem step_cursor (e : Engine) (event : Event) (h : ∀ action, event.asks? ≠ some (r, action)) :
    (e.step event).1.cursor r = e.cursor r := by
  obtain ⟨r', action, c, metrics, ha, -, hs⟩ | ⟨_, _, _, _, -, edits⟩ := step_cases e event
  · have ne : r ≠ r' := fun hr => h action (hr ▸ ha)
    calc (e.step event).1.cursor r = (e.withCursor r' c).cursor r := by rw [hs]; rfl
      _ = e.cursor r := by rw [cursor_withCursor, if_neg ne]
  · exact cursor_of_cursors edits.same.cursors r

/-- An engine that was shut down stays so. -/
theorem step_running (h : (e.step event).1.running = true) : e.running = true := by
  obtain hr | hr := Bool.eq_false_or_eq_true e.running
  · exact hr
  · obtain ⟨_, _, _, running, back, edits⟩ := step_edits e event (.inr hr)
    exact back (edits.same.running.symm.trans h)

/-! ## Questions -/

/-- A question of a listing: the engine that it found, its action, and what it came
to. -/
structure Question where
  engine : Engine
  action : Action
  outcome : Outcome

/-- The question about a kind of resource that an event is. -/
def question? (e : Engine) (r : Resource) (event : Event) : Option Question :=
  match event.message? with
  | none => none
  | some (client, m, now) =>
    match m.asks? with
    | none => none
    | some (r', action) => if r' = r then some ⟨e, action, e.dispatch client m now⟩ else none

/-- The questions about a kind of resource in a history. -/
def questions (e : Engine) (r : Resource) : List Event → List Question
  | [] => []
  | event :: history => (e.question? r event).toList ++ questions (e.step event).1 r history

/-- A question was answered with the entry of a number, and the cursor stands behind
it. -/
structure Question.Gives (r : Resource) (q : Question) (seq : Nat) : Prop where
  ok : q.outcome.reply.status = .ok
  stored : (q.engine.records r q.action).get? seq = some q.outcome.reply.record
  cursor : q.outcome.engine.cursor r = .behind seq

/-- A listing from its first entry to the first answer that there are no more. -/
structure Whole (first : Question) (middle : List Question) (last : Question) : Prop where
  starts : first.action = .query ∧ first.outcome.reply.status = .ok
  goesOn : ∀ q ∈ middle, q.action = .queryCont ∧ q.outcome.reply.status ≠ .entryNotFound
  ends : last.action = .queryCont ∧ last.outcome.reply.status = .entryNotFound

variable {q : Question} {history : List Event}

theorem question?_eq_none (h : e.question? r event = none) (action : Action) :
    event.asks? ≠ some (r, action) := by
  intro ha
  obtain ⟨⟨client, m, now⟩, hm, ha⟩ := Option.bind_eq_some_iff.1 ha
  simp [question?, hm, ha] at h

theorem question?_eq_some (h : e.question? r event = some q) :
    ∃ client m now, event.message? = some (client, m, now) ∧ m.asks? = some (r, q.action) ∧
      q = ⟨e, q.action, e.dispatch client m now⟩ := by
  unfold question? at h
  split at h
  · cases h
  · next client m now hm =>
    split at h
    · cases h
    · next r' action ha =>
      split at h
      · next hr =>
        cases h
        exact ⟨client, m, now, hm, hr ▸ ha, rfl⟩
      · cases h

/-- A running engine answers a question with the next entry of the listing. -/
theorem question?_running (hr : e.running = true) (h : e.question? r event = some q) :
    q.engine = e ∧ q.outcome.engine = (e.step event).1 ∧ q.outcome.reply = (e.list r q.action).reply ∧
      ∃ metrics, (e.step event).1 = { (e.list r q.action).engine with metrics } := by
  obtain ⟨client, m, now, hm, ha, hq⟩ := question?_eq_some h
  have reply : (e.dispatch client m now).reply = (e.list r q.action).reply := by
    rw [dispatch_of_asks hr ha]
  have asks : event.asks? = some (r, q.action) := by rw [Event.asks?, hm]; exact ha
  rw [step_of_message hm] at *
  rw [hq]
  refine ⟨rfl, rfl, reply, ?_⟩
  simp only [dispatch_of_asks hr ha]
  exact ⟨_, rfl⟩

/-- Only a running engine answers a question otherwise than that it failed. -/
theorem running_of_question (hq : e.question? r event = some q)
    (h : q.outcome.reply.status ≠ .internalFailure) : e.running = true := by
  obtain hr | hr := Bool.eq_false_or_eq_true e.running
  · exact hr
  · obtain ⟨client, m, now, -, -, hq⟩ := question?_eq_some hq
    rw [hq, dispatch, handle_of_not_running hr] at h
    exact absurd rfl h

theorem running_of_mem_questions (hq : q ∈ e.questions r history)
    (h : q.outcome.reply.status ≠ .internalFailure) : e.running = true := by
  induction history generalizing e with
  | nil => cases hq
  | cons event history ih =>
    rcases List.mem_append.1 hq with hq | hq
    · exact running_of_question (Option.mem_toList.1 hq) h
    · exact step_running (ih hq)

/-- Up to the first question nothing is asked, and after it the others are. -/
theorem questions_eq_cons {rest : List Question} (h : e.questions r history = q :: rest) :
    ∃ before event after, history = before ++ event :: after ∧ (e.run before).question? r event = some q ∧
      ((e.run before).step event).1.questions r after = rest := by
  induction history generalizing e with
  | nil => cases h
  | cons event history ih =>
    rw [questions] at h
    cases hq : e.question? r event with
    | none =>
      rw [hq] at h
      obtain ⟨before, event', after, rfl, found⟩ := ih h
      exact ⟨event :: before, event', after, rfl, found⟩
    | some q' =>
      rw [hq] at h
      cases h
      exact ⟨[], event, history, rfl, hq, rfl⟩

/-! ## One question after the other -/

/-- A listing that has given some entries and stands behind the last of them:
everything stored up to there was given. -/
structure Underway (e : Engine) (r : Resource) (given : List Nat) (last : Nat) : Prop where
  cursor : e.cursor r = .behind last
  ascending : given.Pairwise (· < ·)
  behind : ∀ seq ∈ given, seq ≤ last
  issued : last ≤ (e.records r .query).last
  complete : ∀ seq ∈ e.numbers r, seq ≤ last → seq ∈ given

variable {given : List Nat} {last seq : Nat} {record : Bytes}

/-- A listing stays underway while something else happens. -/
theorem Underway.wait (h : Underway e r given last)
    (grows : (e.records r .query).Grows (e'.records r .query)) (hc : e'.cursor r = e.cursor r) :
    Underway e' r given last where
  cursor := hc.trans h.cursor
  ascending := h.ascending
  behind := h.behind
  issued := Nat.le_trans h.issued grows.last_le
  complete seq hs le := h.complete seq (grows.old seq hs (Nat.le_trans le h.issued)) le

theorem issued_of_get? {action : Action} (h : (e.records r action).get? seq = some record) :
    seq ≤ (e.records r .query).last :=
  last_records e r action ▸ Sequenced.le_last h

/-- The first entry starts a listing. -/
theorem underway_start {action : Action} (h : (e.records r action).table.first? = some (seq, record)) :
    Underway (e.withCursor r (.behind seq)) r [seq] seq := by
  obtain ⟨stored, least⟩ := Sequenced.first?_eq_some h
  rw [numbers_records] at least
  refine ⟨by simp, List.pairwise_singleton .., by simp, ?_, fun n hn le => ?_⟩
  · rw [records_withCursor]
    exact issued_of_get? stored
  · rw [numbers, records_withCursor] at hn
    exact List.mem_singleton.2 (Nat.le_antisymm le (least n hn))

/-- The entry ahead of the cursor is the next. -/
theorem Underway.next {action : Action} (h : Underway e r given last)
    (ha : (e.records r action).table.after? last = some (seq, record)) :
    Underway (e.withCursor r (.behind seq)) r (given ++ [seq]) seq := by
  obtain ⟨stored, lt, least⟩ := Sequenced.after?_eq_some ha
  rw [numbers_records] at least
  refine ⟨by simp, ?_, fun n hn => ?_, ?_, fun n hn le => ?_⟩
  · refine List.pairwise_append.2 ⟨h.ascending, List.pairwise_singleton .., fun n hn k hk => ?_⟩
    rw [List.mem_singleton.1 hk]
    exact Nat.lt_of_le_of_lt (h.behind n hn) lt
  · rcases List.mem_append.1 hn with hn | hn
    · exact Nat.le_of_lt (Nat.lt_of_le_of_lt (h.behind n hn) lt)
    · exact Nat.le_of_eq (List.mem_singleton.1 hn)
  · rw [records_withCursor]
    exact issued_of_get? stored
  · rw [numbers, records_withCursor] at hn
    by_cases passed : n ≤ last
    · exact List.mem_append_left _ (h.complete n hn passed)
    · have : n = seq := Nat.le_antisymm le (least n hn (Nat.lt_of_not_le passed))
      exact List.mem_append_right _ (List.mem_singleton.2 this)

/-- With none ahead, everything that is stored was given. -/
theorem Underway.finished {action : Action} (h : Underway e r given last)
    (ha : (e.records r action).table.after? last = none) : ∀ seq ∈ e.numbers r, seq ∈ given := by
  intro seq hs
  have passed := Sequenced.after?_eq_none ha
  rw [numbers_records] at passed
  exact h.complete seq hs (passed seq hs)

theorem Underway.withMetrics (h : Underway e r given last) (metrics : Metrics) :
    Underway { e with metrics } r given last := by
  cases r <;> exact ⟨h.cursor, h.ascending, h.behind, h.issued, h.complete⟩

/-- What is answered with an entry gives it, and puts the cursor behind it. -/
theorem gives_of_ahead (hr : e.running = true) (hq : e.question? r event = some q)
    (ha : (e.cursor r).ahead? (q.action == .query) (e.records r q.action).table = some (seq, record))
    (hu : Underway (e.withCursor r (.behind seq)) r given seq)
    (stored : (e.records r q.action).get? seq = some record) :
    q.Gives r seq ∧ Underway (e.step event).1 r given seq := by
  obtain ⟨engine, after, reply, metrics, hs⟩ := question?_running hr hq
  simp only [list, ha] at reply hs
  have underway : Underway (e.step event).1 r given seq := hs ▸ hu.withMetrics metrics
  refine ⟨⟨by rw [reply], ?_, ?_⟩, underway⟩
  · rw [engine, reply, stored]
  · rw [after, underway.cursor]

/-- A listing that is started anew and finds an entry has given just that. -/
theorem underway_of_query (hr : e.running = true) (hq : e.question? r event = some q)
    (ha : q.action = .query) (ok : q.outcome.reply.status = .ok) :
    ∃ seq, q.Gives r seq ∧ Underway (e.step event).1 r [seq] seq := by
  cases hf : (e.records r q.action).table.first? with
  | none =>
    obtain ⟨-, -, reply, -⟩ := question?_running hr hq
    rw [reply] at ok
    simp [list, Cursor.ahead?, ha ▸ hf, ha, refused, Wire.Reply.ofStatus] at ok
  | some entry =>
    have ahead : (e.cursor r).ahead? (q.action == .query) (e.records r q.action).table = some entry := by
      simp [Cursor.ahead?, ha, ← hf]
    exact ⟨entry.1, gives_of_ahead hr hq ahead (underway_start hf) (Sequenced.first?_eq_some hf).1⟩

/-- A listing that goes on gives one more entry, or has given all. -/
theorem Underway.asked (h : Underway e r given last) (hr : e.running = true)
    (hq : e.question? r event = some q) (ha : q.action = .queryCont) :
    (q.outcome.reply.status = .entryNotFound ∧ ∀ seq ∈ e.numbers r, seq ∈ given) ∨
      ∃ seq, q.Gives r seq ∧ Underway (e.step event).1 r (given ++ [seq]) seq := by
  have ahead : (e.cursor r).ahead? (q.action == .query) (e.records r q.action).table =
      (e.records r q.action).table.after? last := by
    rw [h.cursor, ha]
    rfl
  cases hn : (e.records r q.action).table.after? last with
  | none =>
    obtain ⟨-, -, reply, -⟩ := question?_running hr hq
    refine .inl ⟨?_, h.finished hn⟩
    simp [reply, list, ahead, hn, refused, Wire.Reply.ofStatus]
  | some entry =>
    rw [hn] at ahead
    exact .inr ⟨entry.1, gives_of_ahead hr hq ahead (h.next hn) (Sequenced.after?_eq_some hn).1⟩

/-- From one question that was answered to the end of the listing. -/
theorem Underway.run {middle : List Question} {end' : Question} (h : Underway e r given last)
    (hs : e.questions r history = middle ++ [end'])
    (hm : ∀ q ∈ middle, q.action = .queryCont ∧ q.outcome.reply.status ≠ .entryNotFound)
    (he : end'.action = .queryCont ∧ end'.outcome.reply.status = .entryNotFound) :
    ∃ more, List.Forall₂ (Question.Gives r) middle more ∧ (given ++ more).Pairwise (· < ·) ∧
      ∀ seq ∈ end'.engine.numbers r, seq ∈ given ++ more := by
  induction history generalizing e given last middle with
  | nil => simp [questions] at hs
  | cons event history ih =>
    -- An engine that had stopped would not have answered the last question so.
    have mem : end' ∈ e.questions r (event :: history) := by simp [hs]
    have running : e.running = true := running_of_mem_questions mem (by simp [he.2])
    rw [questions] at hs
    cases hq : e.question? r event with
    | none =>
      rw [hq] at hs
      have waits := h.wait (step_grows e event r) (step_cursor e event (question?_eq_none hq))
      exact ih waits hs hm
    | some q =>
      rw [hq, Option.toList_some, List.singleton_append] at hs
      cases middle with
      | nil =>
        obtain ⟨rfl, -⟩ := List.cons.inj hs
        obtain ⟨-, all⟩ | ⟨seq, gives, -⟩ := h.asked running hq he.1
        · refine ⟨[], .nil, by simpa using h.ascending, ?_⟩
          simpa [(question?_running running hq).1] using all
        · rw [gives.ok] at he
          cases he.2
      | cons q' middle =>
        obtain ⟨rfl, rest⟩ := List.cons.inj hs
        obtain ⟨cont, found⟩ := hm q List.mem_cons_self
        obtain ⟨none, -⟩ | ⟨seq, gives, underway⟩ := h.asked running hq cont
        · exact absurd none found
        · obtain ⟨more, hg, asc, all⟩ := ih underway rest fun q hq => hm q (List.mem_cons_of_mem _ hq)
          rw [List.append_assoc] at asc all
          exact ⟨seq :: more, .cons gives hg, asc, all⟩

/-! ## Main result -/

/-- **A listing is complete while the table changes.** Whatever happens between its
questions, from the first one to the first answer that there are no more: each
answer is an entry that was stored at that moment, the numbers of the entries
ascend, and each entry that is stored at the end was given exactly once. -/
theorem listing_complete {e : Engine} {r : Resource} {history : List Event} {first last : Question}
    {middle : List Question} (hs : e.questions r history = first :: (middle ++ [last]))
    (whole : Whole first middle last) :
    ∃ given, List.Forall₂ (Question.Gives r) (first :: middle) given ∧ given.Pairwise (· < ·) ∧
      ∀ seq ∈ last.engine.numbers r, given.count seq = 1 := by
  obtain ⟨before, event, after, -, hq, hrest⟩ := questions_eq_cons hs
  have running : (e.run before).running = true := running_of_question hq (by simp [whole.starts.2])
  obtain ⟨seq, gives, underway⟩ := underway_of_query running hq whole.starts.1 whole.starts.2
  obtain ⟨more, hg, asc, all⟩ := underway.run hrest whole.goesOn whole.ends
  have once : (seq :: more).Nodup := asc.imp Nat.ne_of_lt
  exact ⟨seq :: more, .cons gives hg, asc, fun n hn => List.count_eq_one_of_mem once (all n hn)⟩

namespace Small

/-- A listing of routes during which two are registered and two go away, one of them
the one that was just listed. -/
def changing : List Event :=
  [send .route .query (.route (route 0)), send .route .register (.route (route 8)),
    send .route .register (.route (route 9)), send .route .deregister (.route (route 8)),
    send .route .deregister (.route (route 7)), send .route .queryCont (.route (route 0)), .age 0,
    send .route .queryCont (.route (route 0))]

end Small

theorem listing_complete_small :
    (Small.engine.questions .routes Small.changing).map
        (fun q => (q.action, q.outcome.reply.status, q.engine.numbers .routes)) =
        [(.query, .ok, [1]), (.queryCont, .ok, [3]), (.queryCont, .entryNotFound, [3])] ∧
      ∃ first second last given, Small.engine.questions .routes Small.changing = [first, second, last] ∧
        List.Forall₂ (Question.Gives .routes) [first, second] given ∧ given.Pairwise (· < ·) ∧
        ∀ seq ∈ last.engine.numbers .routes, given.count seq = 1 := by
  have seen : (Small.engine.questions .routes Small.changing).map
      (fun q => (q.action, q.outcome.reply.status, q.engine.numbers .routes)) =
      [(.query, .ok, [1]), (.queryCont, .ok, [3]), (.queryCont, .entryNotFound, [3])] := by
    decide +kernel
  refine ⟨seen, ?_⟩
  obtain ⟨first, _, hs, h₁, h⟩ := List.map_eq_cons_iff.1 seen
  obtain ⟨second, _, rfl, h₂, h⟩ := List.map_eq_cons_iff.1 h
  obtain ⟨last, _, rfl, h₃, h⟩ := List.map_eq_cons_iff.1 h
  obtain rfl := List.map_eq_nil_iff.1 h
  simp only [Prod.mk.injEq] at h₁ h₂ h₃
  have whole : Whole first [second] last := by
    refine ⟨⟨h₁.1, h₁.2.1⟩, fun q hq => ?_, ⟨h₃.1, h₃.2.1⟩⟩
    rw [List.mem_singleton.1 hq]
    exact ⟨h₂.1, by simp [h₂.2.1]⟩
  obtain ⟨given, listed⟩ := listing_complete hs whole
  exact ⟨first, second, last, given, hs, listed⟩

end ControlPlane.Engine
