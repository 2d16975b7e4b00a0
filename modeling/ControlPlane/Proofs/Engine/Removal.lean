/-
The order in which routes are removed makes no difference.

Locally it does: a connection there through one removed route and back through another
goes away with whichever is removed first. But what a run of removals leaves has one
description (`Dropped`), in which the ids occur as a set: the routes of other ids stay, and
so do the connections that go through none of the ids. It is composed of single removals
(`Dropped.trans`), and it fixes the tables down to their indices (`Dropped.eq_of_perm`).

A reset is one such run, over the ids of a family, after the family's connections are
gone; as each of these goes through a route of the family (`mem_usingAny_ids`), the run
alone would have taken them all.
-/
import ControlPlane.Proofs.Engine.Aging
import ControlPlane.Proofs.Engine.Departure

namespace ControlPlane

theorem PerFamily.eq_of_get {α : Type} {p q : PerFamily α} (h : ∀ f, p.get f = q.get f) : p = q := by
  have v4 : p.v4 = q.v4 := h .v4
  have v6 : p.v6 = q.v6 := h .v6
  cases p
  cases q
  cases v4
  cases v6
  rfl

/-- What has none of some keys is left when these are filtered out one by one. -/
theorem filter_not_mem_cons {α β : Type} [DecidableEq β] (key : α → β) (k : β) (ks : List β) (l : List α) :
    (l.filter fun x => key x ∉ k :: ks) = (l.filter fun x => key x != k).filter fun x => key x ∉ ks := by
  rw [List.filter_filter]
  refine List.filter_congr fun x _ => ?_
  rw [Bool.eq_iff_iff]
  simp [and_comm]

namespace ConnectionTable

variable {t t' : ConnectionTable} {seq : Nat} {seqs seqs' : List Nat} {ids ids' : List UInt32}

/-! ## Connections by number -/

/-- A key that leads to a connection is unlinked, any other key stays. -/
theorem pairs_unlink_one (flows : Index FlowKey (Nat × Direction)) (seq : Nat) (k : FlowKey) :
    (match flows.get? k with
      | some (owner, _) => if owner = seq then flows.erase k else flows
      | none => flows).pairs = flows.pairs.filter fun x => !(x.2.1 == seq && k == x.1) := by
  have found : ∀ x ∈ flows.pairs, x.1 = k → flows.get? k = some x.2 := by
    rintro ⟨_, b⟩ hx rfl
    exact Index.get?_eq_some_iff.2 hx
  split
  · next owner _ leads =>
    have owned : ∀ x ∈ flows.pairs, x.1 = k → x.2.1 = owner := by
      intro x hx key
      have same := found x hx key
      rw [leads, Option.some.injEq] at same
      rw [← same]
    split
    · next own =>
      refine List.filter_congr fun x hx => ?_
      rw [Bool.eq_iff_iff]
      by_cases key : x.1 = k
      · simp [key, owned x hx key, own]
      · simp [key, Ne.symm key]
    · next other =>
      rw [eq_comm, List.filter_eq_self]
      intro x hx
      by_cases key : x.1 = k
      · simp [owned x hx key, other]
      · simp [Ne.symm key]
  · next free =>
    rw [eq_comm, List.filter_eq_self]
    intro x hx
    have key : x.1 ≠ k := by
      intro key
      rw [found x hx key] at free
      cases free
    simp [Ne.symm key]

/-- The keys of a connection that lead to it are unlinked. -/
theorem pairs_unlink (flows : Index FlowKey (Nat × Direction)) (seq : Nat) (c : Wire.Connection) :
    (unlink flows seq c).pairs =
      flows.pairs.filter fun x => !(x.2.1 == seq && c.forwarded.any fun d => c.key d == x.1) := by
  rw [unlink]
  generalize c.forwarded = ds
  induction ds generalizing flows with
  | nil => simp
  | cons d ds ih =>
    rw [List.foldl_cons, ih]
    refine (congrArg (List.filter _) (pairs_unlink_one flows seq (c.key d))).trans ?_
    rw [List.filter_filter]
    refine List.filter_congr fun x _ => ?_
    cases x.2.1 == seq <;> simp [Bool.and_comm]

/-- With a connection the index loses what leads to it. -/
theorem Exact.pairs_remove (h : t.Exact) (seq : Nat) :
    (t.remove seq).2.flows.pairs = t.flows.pairs.filter fun x => x.2.1 != seq := by
  have stored : ∀ x ∈ t.flows.pairs, ∃ entry, t.get? x.2.1 = some entry ∧
      entry.connection.forwards x.2.2 = true ∧ entry.connection.key x.2.2 = x.1 := by
    rintro ⟨k, n, d⟩ hx
    exact (h k n d).1 (Index.get?_eq_some_iff.2 hx)
  cases he : t.get? seq with
  | none =>
    have same : (t.remove seq).2 = t := by simp [ConnectionTable.remove, he]
    rw [same, eq_comm, List.filter_eq_self]
    intro x hx
    obtain ⟨entry, there, -⟩ := stored x hx
    rw [bne_iff_ne]
    rintro rfl
    rw [he] at there
    cases there
  | some entry =>
    have flows : (t.remove seq).2.flows = unlink t.flows seq entry.connection := by
      simp [ConnectionTable.remove, he]
    rw [flows, pairs_unlink]
    refine List.filter_congr fun x hx => ?_
    by_cases hn : x.2.1 = seq
    · obtain ⟨entry', there, forwards, key⟩ := stored x hx
      rw [hn, he, Option.some.injEq] at there
      subst there
      have linked : (entry.connection.forwarded.any fun d => entry.connection.key d == x.1) = true :=
        List.any_eq_true.2 ⟨x.2.2, Wire.Connection.mem_forwarded.2 forwards, beq_iff_eq.2 key⟩
      simp [hn, linked]
    · rw [Bool.eq_iff_iff]
      simp [hn]

theorem Exact.pairs_removeAll (h : t.Exact) (seqs : List Nat) :
    (t.removeAll seqs).flows.pairs = t.flows.pairs.filter fun x => x.2.1 ∉ seqs := by
  induction seqs generalizing t with
  | nil => simp
  | cons seq seqs ih =>
    rw [removeAll_cons, ih (h.remove seq), h.pairs_remove]
    exact (filter_not_mem_cons (fun x => x.2.1) seq seqs t.flows.pairs).symm

/-- A table is its connections, its last number and its index. -/
theorem ext_parts (family : t.family = t'.family) (entries : t.connections.entries = t'.connections.entries)
    (last : t.connections.last = t'.connections.last) (pairs : t.flows.pairs = t'.flows.pairs) : t = t' := by
  obtain ⟨_, connections, ⟨_, _⟩⟩ := t
  obtain ⟨_, connections', ⟨_, _⟩⟩ := t'
  obtain rfl : connections = connections' := Sequenced.ext_entries entries last
  cases family
  cases pairs
  rfl

/-- What is left depends on which connections are removed, not on the order. -/
theorem Exact.removeAll_congr (h : t.Exact) (same : ∀ n, n ∈ seqs ↔ n ∈ seqs') :
    t.removeAll seqs = t.removeAll seqs' := by
  refine ext_parts ?_ ?_ ?_ ?_
  · rw [family_removeAll, family_removeAll]
  · simp only [entries_removeAll, same]
  · rw [last_removeAll, last_removeAll]
  · simp only [h.pairs_removeAll, same]

theorem removeAll_append (t : ConnectionTable) (seqs seqs' : List Nat) :
    t.removeAll (seqs ++ seqs') = (t.removeAll seqs).removeAll seqs' :=
  List.foldl_append ..

/-- Without any of its connections a table is as if it was cleared. -/
theorem Exact.removeAll_eq_clear (h : t.Exact) (all : ∀ n entry, t.get? n = some entry → n ∈ seqs) :
    t.removeAll seqs = t.clear := by
  refine ext_parts ?_ ?_ ?_ ?_
  · rw [family_removeAll]
    rfl
  · rw [entries_removeAll]
    refine List.filter_eq_nil_iff.2 fun x hx => ?_
    simpa using all x.1 x.2 (Sequenced.mem_entries_iff.1 hx)
  · rw [last_removeAll]
    rfl
  · rw [h.pairs_removeAll]
    refine List.filter_eq_nil_iff.2 fun x hx => ?_
    obtain ⟨k, n, d⟩ := x
    obtain ⟨entry, there, -⟩ := (h k n d).1 (Index.get?_eq_some_iff.2 hx)
    simpa using all n entry there

/-! ## Connections by route -/

/-- The connections that forward a direction through one of some routes. -/
def usingAny (t : ConnectionTable) (ids : List UInt32) : List Nat :=
  (t.connections.entries.filter fun x => ids.any (uses x.2.connection)).map (·.1)

theorem mem_usingAny : seq ∈ t.usingAny ids ↔ ∃ id ∈ ids, seq ∈ t.usingRoute id := by
  simp only [usingAny, usingRoute, List.mem_map, List.mem_filter, List.any_eq_true]
  constructor
  · rintro ⟨x, ⟨stored, id, hid, through⟩, rfl⟩
    exact ⟨id, hid, x, ⟨stored, through⟩, rfl⟩
  · rintro ⟨id, hid, x, ⟨stored, through⟩, rfl⟩
    exact ⟨x, ⟨stored, id, hid, through⟩, rfl⟩

theorem usingAny_nil (t : ConnectionTable) : t.usingAny [] = [] := by
  simp [usingAny]

theorem usingAny_singleton (t : ConnectionTable) (id : UInt32) : t.usingAny [id] = t.usingRoute id := by
  simp [usingAny, usingRoute]

theorem usingAny_nodup (t : ConnectionTable) (ids : List UInt32) : (t.usingAny ids).Nodup :=
  t.connections.nodup_filter_entries _

theorem usingAny_perm (t : ConnectionTable) (h : ids.Perm ids') : t.usingAny ids = t.usingAny ids' := by
  simp only [usingAny, h.any_eq]

theorem mem_usingAny_removeAll :
    seq ∈ (t.removeAll seqs).usingAny ids ↔ seq ∉ seqs ∧ seq ∈ t.usingAny ids := by
  simp only [mem_usingAny, mem_usingRoute, get?_removeAll]
  by_cases h : seq ∈ seqs <;> simp [h]

/-- Through some routes or others go the connections through the former, and of those
that are left without them the ones through the latter. -/
theorem usingAny_append (t : ConnectionTable) (ids ids' : List UInt32) :
    (t.usingAny (ids ++ ids')).Perm (t.usingAny ids ++ (t.removeAll (t.usingAny ids)).usingAny ids') := by
  have apart : (t.usingAny ids).Disjoint ((t.removeAll (t.usingAny ids)).usingAny ids') := by
    intro n first rest
    exact (mem_usingAny_removeAll.1 rest).1 first
  have nodup := List.nodup_append'.2 ⟨t.usingAny_nodup ids, usingAny_nodup _ ids', apart⟩
  refine (List.perm_ext_iff_of_nodup (t.usingAny_nodup _) nodup).2 fun n => ?_
  have either : n ∈ t.usingAny (ids ++ ids') ↔ n ∈ t.usingAny ids ∨ n ∈ t.usingAny ids' := by
    simp only [mem_usingAny, List.mem_append, or_and_right, exists_or]
  rw [either, List.mem_append, mem_usingAny_removeAll]
  by_cases first : n ∈ t.usingAny ids <;> simp [first]

/-- Without the connections through some routes, those that go through none are left. -/
theorem entries_removeAll_usingAny (t : ConnectionTable) (ids : List UInt32) :
    (t.removeAll (t.usingAny ids)).connections.entries =
      t.connections.entries.filter fun x => !ids.any (uses x.2.connection) :=
  t.entries_removeAll_filter _

end ConnectionTable

namespace RouteTable

variable {t t' : RouteTable} {ids ids' : List UInt32}

/-! ## Routes -/

/-- The table without the routes of some ids. -/
def removeAll (t : RouteTable) (ids : List UInt32) : RouteTable := ids.foldl (fun t id => (t.remove id).2) t

@[simp] theorem removeAll_nil (t : RouteTable) : t.removeAll [] = t := rfl

@[simp] theorem removeAll_cons (t : RouteTable) (id : UInt32) (ids : List UInt32) :
    t.removeAll (id :: ids) = (t.remove id).2.removeAll ids := rfl

theorem removeAll_append (t : RouteTable) (ids ids' : List UInt32) :
    t.removeAll (ids ++ ids') = (t.removeAll ids).removeAll ids' :=
  List.foldl_append ..

theorem last_remove (t : RouteTable) (id : UInt32) : (t.remove id).2.routes.last = t.routes.last := by
  unfold RouteTable.remove
  split <;> rfl

theorem last_removeAll (t : RouteTable) (ids : List UInt32) :
    (t.removeAll ids).routes.last = t.routes.last := by
  induction ids generalizing t with
  | nil => rfl
  | cons id ids ih => rw [removeAll_cons, ih, last_remove]

theorem Indexed.entries_removeAll (h : t.Indexed) (ids : List UInt32) :
    (t.removeAll ids).routes.entries = t.routes.entries.filter fun x => x.2.id ∉ ids := by
  induction ids generalizing t with
  | nil => simp
  | cons id ids ih =>
    rw [removeAll_cons, ih (h.remove id), h.entries_remove]
    exact (filter_not_mem_cons (fun x => x.2.id) id ids t.routes.entries).symm

theorem pairs_remove (t : RouteTable) (id : UInt32) :
    (t.remove id).2.byId.pairs = t.byId.pairs.filter fun x => x.1 != id := by
  cases found : t.byId.get? id with
  | some seq =>
    simp only [RouteTable.remove, found]
    rfl
  | none =>
    have same : (t.remove id).2 = t := by simp [RouteTable.remove, found]
    rw [same, eq_comm, List.filter_eq_self]
    rintro ⟨id', seq⟩ hx
    rw [bne_iff_ne]
    rintro rfl
    rw [Index.get?_eq_some_iff.2 hx] at found
    cases found

theorem pairs_removeAll (t : RouteTable) (ids : List UInt32) :
    (t.removeAll ids).byId.pairs = t.byId.pairs.filter fun x => x.1 ∉ ids := by
  induction ids generalizing t with
  | nil => simp
  | cons id ids ih =>
    rw [removeAll_cons, ih, pairs_remove]
    exact (filter_not_mem_cons Prod.fst id ids t.byId.pairs).symm

/-- A table is its routes, its last number and its index. -/
theorem ext_parts (entries : t.routes.entries = t'.routes.entries) (last : t.routes.last = t'.routes.last)
    (pairs : t.byId.pairs = t'.byId.pairs) : t = t' := by
  obtain ⟨routes, ⟨_, _⟩⟩ := t
  obtain ⟨routes', ⟨_, _⟩⟩ := t'
  obtain rfl : routes = routes' := Sequenced.ext_entries entries last
  cases pairs
  rfl

/-- What is left depends on which ids are removed, not on the order. -/
theorem Indexed.removeAll_congr (h : t.Indexed) (same : ∀ id, id ∈ ids ↔ id ∈ ids') :
    t.removeAll ids = t.removeAll ids' := by
  refine ext_parts ?_ ?_ ?_
  · simp only [h.entries_removeAll, same]
  · rw [last_removeAll, last_removeAll]
  · simp only [pairs_removeAll, same]

/-- The ids of a family are those that lead to a route of it. -/
theorem Indexed.mem_ids_iff (h : t.Indexed) {f : Family} {id : UInt32} :
    id ∈ t.ids (some f) ↔ ∃ r, t.get? id = some r ∧ r.family = f := by
  simp only [ids, List.mem_map, List.mem_filter, Option.all_some, beq_iff_eq, h.get?_eq_some_iff]
  constructor
  · rintro ⟨r, ⟨stored, family⟩, id⟩
    exact ⟨r, ⟨stored, id⟩, family⟩
  · rintro ⟨r, ⟨stored, id⟩, family⟩
    exact ⟨r, ⟨stored, family⟩, id⟩

end RouteTable

namespace Engine

open Wire (Message)

variable {e e' e'' : Engine} {event : Event} {events events' : List Event} {client : ClientId} {m : Message}
  {now : Nat} {f : Family} {id : UInt32} {ids ids' : List UInt32}

/-- How many connections go through one of some routes. -/
def through (e : Engine) (ids : List UInt32) : Nat :=
  ((e.connections.get .v4).usingAny ids).length + ((e.connections.get .v6).usingAny ids).length

/-- An engine and what it comes to when the routes of some ids are removed, and with them
the connections that go through one of these. -/
structure Dropped (e : Engine) (ids : List UInt32) (e' : Engine) : Prop where
  routes : e'.routes = e.routes.removeAll ids
  connections : ∀ f, e'.connections.get f = (e.connections.get f).removeAll ((e.connections.get f).usingAny ids)
  cascaded : e'.metrics.count .cascaded = e.metrics.count .cascaded + .ofNat (e.through ids)
  subscribers : e'.subscribers = e.subscribers
  running : e'.running = e.running

theorem Dropped.refl (e : Engine) : Dropped e [] e where
  routes := rfl
  connections f := by rw [ConnectionTable.usingAny_nil, ConnectionTable.removeAll_nil]
  cascaded := by simp [through, ConnectionTable.usingAny_nil]
  subscribers := rfl
  running := rfl

/-- Removals one after the other are one removal of all. -/
theorem Dropped.trans (h : e.Sound) (first : Dropped e ids e') (rest : Dropped e' ids' e'') :
    Dropped e (ids ++ ids') e'' where
  routes := by rw [rest.routes, first.routes, RouteTable.removeAll_append]
  connections f := by
    have same := (e.connections.get f).usingAny_append ids ids'
    rw [rest.connections, first.connections, ← ConnectionTable.removeAll_append]
    exact (h.flows f).removeAll_congr fun n => same.mem_iff.symm
  cascaded := by
    have counts : e.through (ids ++ ids') = e.through ids + e'.through ids' := by
      have v4 := ((e.connections.get .v4).usingAny_append ids ids').length_eq
      have v6 := ((e.connections.get .v6).usingAny_append ids ids').length_eq
      rw [List.length_append] at v4 v6
      simp only [through, first.connections]
      omega
    rw [rest.cascaded, first.cascaded, counts, UInt64.ofNat_add, UInt64.add_assoc]
  subscribers := rest.subscribers.trans first.subscribers
  running := rest.running.trans first.running

/-- The order of the ids makes no difference to what is left. -/
theorem Dropped.eq_of_perm (h : e.Sound) (dropped : Dropped e ids e') (dropped' : Dropped e ids' e'')
    (order : ids'.Perm ids) :
    e''.routes = e'.routes ∧ e''.connections = e'.connections ∧
      e''.metrics.count .cascaded = e'.metrics.count .cascaded := by
  have tables (f : Family) : e''.connections.get f = e'.connections.get f := by
    rw [dropped.connections, dropped'.connections, ConnectionTable.usingAny_perm _ order]
  refine ⟨?_, ?_, ?_⟩
  · rw [dropped.routes, dropped'.routes]
    exact h.ids.removeAll_congr fun id => order.mem_iff
  · exact PerFamily.eq_of_get tables
  · rw [dropped.cascaded, dropped'.cascaded, through, through, ConnectionTable.usingAny_perm _ order,
      ConnectionTable.usingAny_perm _ order]

/-! ## Removals -/

theorem connections_cascades (e : Engine) (id : UInt32) (f : Family) :
    (families.foldl (cascade id) e).connections.get f =
      (e.connections.get f).removeAll ((e.connections.get f).usingRoute id) := by
  simp only [families, List.foldl_cons, List.foldl_nil]
  rw [cascade_eq _ .v6, cascade_eq _ .v4]
  cases f <;> rfl

theorem cascaded_cascades (e : Engine) (id : UInt32) :
    (families.foldl (cascade id) e).metrics.count .cascaded =
      e.metrics.count .cascaded + .ofNat (e.through [id]) := by
  simp only [families, List.foldl_cons, List.foldl_nil, through, ConnectionTable.usingAny_singleton]
  rw [cascade_eq _ .v6, cascade_eq _ .v4, UInt64.ofNat_add, ← UInt64.add_assoc]
  rfl

/-- No connection goes through an id that leads to no route. -/
theorem Sound.usingRoute_eq_nil (h : e.Sound) (free : e.routes.get? id = none) (f : Family) :
    (e.connections.get f).usingRoute id = [] := by
  refine ConnectionTable.usingRoute_eq_nil_iff.2 fun seq entry there d forwards hid => ?_
  obtain ⟨r, hr, -⟩ := routeServes_iff.1 (h.served f seq entry there d forwards)
  rw [hid, free] at hr
  cases hr

theorem dropRoute_dropped (h : e.Sound) (id : UInt32) : Dropped e [id] (e.dropRoute id).1 where
  routes := routes_dropRoute h.ids id
  connections f := by
    rw [ConnectionTable.usingAny_singleton]
    cases found : e.routes.get? id with
    | some r =>
      rw [dropRoute_of_get? found]
      exact connections_cascades e id f
    | none => rw [dropRoute_of_get?_eq_none found, h.usingRoute_eq_nil found, ConnectionTable.removeAll_nil]
  cascaded := by
    cases found : e.routes.get? id with
    | some r =>
      rw [dropRoute_of_get? found]
      exact cascaded_cascades e id
    | none =>
      have unused : e.through [id] = 0 := by
        simp [through, ConnectionTable.usingAny_singleton, h.usingRoute_eq_nil found]
      rw [dropRoute_of_get?_eq_none found, unused]
      simp
  subscribers := subscribers_dropRoute e id
  running := (dropRoute_edits e id).same.running

theorem Edits.sound (edits : Edits e e') (h : e.Sound) : e'.Sound := by
  induction edits with
  | refl => exact h
  | tail _ edit ih => exact ih.edit edit

theorem dropRoutes_dropped (h : e.Sound) (ids : List UInt32) : Dropped e ids (e.dropRoutes ids).1 := by
  induction ids generalizing e with
  | nil => exact .refl e
  | cons id ids ih =>
    have rest := ih ((dropRoute_edits e id).sound h)
    rw [fst_dropRoutes_cons]
    exact (dropRoute_dropped h id).trans h rest

/-! ## Deregistrations -/

/-- A client asks for the route of an id to be removed. -/
def Deregisters (event : Event) (id : UInt32) : Prop :=
  ∃ client m now r, event.message? = some (client, m, now) ∧
    m.Carries .route (some .deregister) (.route r) ∧ r.id = id

/-- A client asks for a family to be reset. -/
def Resets (event : Event) (f : Family) : Prop :=
  ∃ client m now action r, event.message? = some (client, m, now) ∧ m.Carries (.reset f) action r

/-- The answer to a deregistration: whether the id leads to a route, and an event for
the route's owner. -/
def deregistered (e : Engine) (id : UInt32) : Answer :=
  let status : Status := if (e.routes.get? id).isSome then .ok else .entryNotFound
  .replied ((Wire.Reply.ofStatus status).toMessage Command.route.code)
    ((e.routes.get? id).toList.flatMap e.tellOwner)

theorem status_dropRoute (e : Engine) (id : UInt32) :
    (e.dropRoute id).2.1 = if (e.routes.get? id).isSome then .ok else .entryNotFound := by
  cases found : e.routes.get? id with
  | some r => rw [dropRoute_of_get? found, Option.isSome_some, if_pos rfl]
  | none =>
    rw [dropRoute_of_get?_eq_none found]
    rfl

theorem step_deregisters (running : e.running = true) (sent : Deregisters event id) :
    (e.step event).2 = e.deregistered id ∧
      ∃ metrics : Metrics, metrics.count .cascaded = (e.dropRoute id).1.metrics.count .cascaded ∧
        (e.step event).1 = { (e.dropRoute id).1 with metrics } := by
  obtain ⟨client, m, now, r, message, carries, rfl⟩ := sent
  rw [step_of_message message, dispatch_of_carries running carries]
  refine ⟨?_, _, ?_, rfl⟩
  · simp only [perform, handleRoute, status_dropRoute, events_dropRoute, carries.2.1]
    rfl
  · simp only [Metrics.count_answered]
    rfl

theorem step_dropped (h : e.Sound) (running : e.running = true) (sent : Deregisters event id) :
    Dropped e [id] (e.step event).1 := by
  obtain ⟨-, metrics, cascaded, left⟩ := step_deregisters running sent
  have dropped := dropRoute_dropped h id
  rw [left]
  exact ⟨dropped.routes, dropped.connections, cascaded.trans dropped.cascaded, dropped.subscribers, dropped.running⟩

/-- What is left after deregistrations. -/
theorem run_dropped (h : e.Reachable) (running : e.running = true) (sent : List.Forall₂ Deregisters events ids) :
    Dropped e ids (e.run events) := by
  induction sent generalizing e with
  | nil => exact .refl e
  | cons one _ ih =>
    have first := step_dropped h.sound running one
    exact first.trans h.sound (ih (h.step _) (first.running.trans running))

/-- Each of some deregistrations of distinct ids is answered as if it was the first. -/
theorem answers_deregistered (h : e.Reachable) (running : e.running = true)
    (sent : List.Forall₂ Deregisters events ids) (distinct : ids.Nodup) :
    e.answers events = ids.map e.deregistered := by
  induction sent generalizing e with
  | nil => rfl
  | @cons event id events ids one _ ih =>
    obtain ⟨fresh, distinct⟩ := List.nodup_cons.1 distinct
    have first := step_dropped h.sound running one
    have others : ∀ id' ∈ ids, (e.step event).1.deregistered id' = e.deregistered id' := by
      intro id' hm
      have ne : id ≠ id' := fun same => fresh (same ▸ hm)
      have found : (e.step event).1.routes.get? id' = e.routes.get? id' := by
        rw [first.routes, RouteTable.removeAll_cons, RouteTable.removeAll_nil, h.sound.ids.get?_remove, if_neg ne]
      have told : (e.step event).1.tellOwner = e.tellOwner := by
        funext r
        rw [tellOwner, tellOwner, first.subscribers]
      rw [deregistered, deregistered, found, told]
    rw [answers, ih (h.step event) (first.running.trans running) distinct, (step_deregisters running one).1,
      List.map_cons, List.map_congr_left others]

/-! ## Families -/

theorem Sound.mem_ids_iff (h : e.Sound) : id ∈ e.routes.ids (some f) ↔ e.routeServes f id = true := by
  rw [h.ids.mem_ids_iff, routeServes_iff]

theorem exists_forwards (c : Wire.Connection) : ∃ d, c.forwards d = true := by
  cases hd : c.directions with
  | both => exact ⟨.orig, by simp [Wire.Connection.forwards, Wire.Directions.hasOrig, hd]⟩
  | origOnly => exact ⟨.orig, by simp [Wire.Connection.forwards, Wire.Directions.hasOrig, hd]⟩
  | replyOnly => exact ⟨.reply, by simp [Wire.Connection.forwards, Wire.Directions.hasReply, hd]⟩

/-- A connection goes through some route of its own family, and through none of
another. -/
theorem Sound.mem_usingAny_ids (h : e.Sound) {g : Family} {seq : Nat} {entry : Tracked}
    (there : (e.connections.get g).get? seq = some entry) :
    seq ∈ (e.connections.get g).usingAny (e.routes.ids (some f)) ↔ g = f := by
  simp only [ConnectionTable.mem_usingAny, ConnectionTable.mem_usingRoute, h.mem_ids_iff,
    ConnectionTable.uses_iff]
  constructor
  · rintro ⟨id, serves, entry', there', d, forwards, rfl⟩
    have own := h.served g seq entry' there' d forwards
    obtain ⟨r, hr, rfl⟩ := routeServes_iff.1 serves
    obtain ⟨r', hr', rfl⟩ := routeServes_iff.1 own
    rw [hr, Option.some.injEq] at hr'
    rw [hr']
  · rintro rfl
    obtain ⟨d, forwards⟩ := exists_forwards entry.connection
    exact ⟨_, h.served g seq entry there d forwards, entry, there, d, forwards, rfl⟩

/-- Through the routes of a family go just the connections of the family. -/
theorem Sound.removeAll_ids (h : e.Sound) (f g : Family) :
    (e.connections.get g).removeAll ((e.connections.get g).usingAny (e.routes.ids (some f))) =
      if g = f then (e.connections.get g).clear else e.connections.get g := by
  split
  · next same =>
    exact (h.flows g).removeAll_eq_clear fun seq entry there => (h.mem_usingAny_ids there).2 same
  · next other =>
    have none : (e.connections.get g).usingAny (e.routes.ids (some f)) = [] := by
      rw [List.eq_nil_iff_forall_not_mem]
      intro seq through
      obtain ⟨id, hid, used⟩ := ConnectionTable.mem_usingAny.1 through
      obtain ⟨entry, there, -⟩ := ConnectionTable.mem_usingRoute.1 used
      exact other ((h.mem_usingAny_ids there).1 through)
    rw [none, ConnectionTable.removeAll_nil]

/-- The routes that are left without a family's. -/
theorem Sound.entries_removeAll_ids (h : e.Sound) (f : Family) :
    (e.routes.removeAll (e.routes.ids (some f))).routes.entries =
      e.routes.routes.entries.filter fun x => x.2.family != f := by
  rw [h.ids.entries_removeAll]
  refine List.filter_congr fun x hx => ?_
  have found : e.routes.get? x.2.id = some x.2 :=
    h.ids.get?_eq_some_iff.2 ⟨Sequenced.mem_values_iff.2 ⟨x.1, Sequenced.mem_entries_iff.1 hx⟩, rfl⟩
  have gone : x.2.id ∈ e.routes.ids (some f) ↔ x.2.family = f := by
    rw [h.ids.mem_ids_iff, found]
    simp
  rw [Bool.eq_iff_iff, decide_eq_true_iff, gone, bne_iff_ne]

/-- What a reset leaves: the family's connections are gone, and its routes. -/
theorem reset_dropped (h : e.Sound) (f : Family) :
    (e.reset f).1.routes = e.routes.removeAll (e.routes.ids (some f)) ∧
      (∀ g, (e.reset f).1.connections.get g =
        if g = f then (e.connections.get g).clear else e.connections.get g) ∧
      (e.reset f).2 = (e.routes.ids (some f)).flatMap fun id => (e.routes.get? id).toList.flatMap e.tellOwner := by
  have cleared : (e.withConnections f (e.connections.get f).clear).Sound := h.edit (.clearConnections f)
  have dropped := dropRoutes_dropped cleared (e.routes.ids (some f))
  have distinct : (e.routes.ids (some f)).Nodup :=
    h.ids.ids_nodup.sublist (List.Sublist.map _ List.filter_sublist)
  refine ⟨dropped.routes, fun g => ?_, events_dropRoutes cleared.ids distinct⟩
  refine ((dropped.connections g).trans (cleared.removeAll_ids f g)).trans ?_
  rw [get_withConnections]
  split
  · next same =>
    rw [same]
    rfl
  · rfl

/-! ## Main result -/

theorem step_resets (running : e.running = true) {event : Event} (sent : Resets event f) :
    (e.step event).1.routes = (e.reset f).1.routes ∧ (e.step event).1.connections = (e.reset f).1.connections ∧
      (e.step event).2.events = (e.reset f).2 := by
  obtain ⟨client, m, now, action, r, message, carries⟩ := sent
  rw [step_of_message message, dispatch_of_carries running carries]
  exact ⟨rfl, rfl, rfl⟩

/-- **The order of removals makes no difference.** Deregistrations of distinct ids, sent in
any two orders by whatever clients, are answered alike id by id, and leave the same
routes, the same connections and the same count of those that went with their routes; the
owners are told the same, in some order. What is left are the routes of other ids and the
connections that go through none of the ids, and all others of these are counted. When the ids are those of a family, a reset of
the family leaves the same routes and connections and tells owners the same: its
connections and routes are gone, and those of the other family are as they were. -/
theorem removals_commute {e : Engine} (h : e.Reachable) (running : e.running = true) {ids ids' : List UInt32}
    {events events' : List Event} (distinct : ids.Nodup) (order : ids'.Perm ids)
    (sent : List.Forall₂ Deregisters events ids) (sent' : List.Forall₂ Deregisters events' ids') :
    (e.answers events = ids.map e.deregistered ∧ e.answers events' = ids'.map e.deregistered) ∧
      (e.run events').routes = (e.run events).routes ∧
      (e.run events').connections = (e.run events).connections ∧
      (e.run events').metrics.count .cascaded = (e.run events).metrics.count .cascaded ∧
      ((e.answers events').flatMap Answer.events).Perm ((e.answers events).flatMap Answer.events) ∧
      ((e.run events).routes.routes.entries = e.routes.routes.entries.filter (fun x => x.2.id ∉ ids) ∧
        (∀ f, ((e.run events).connections.get f).connections.entries =
          (e.connections.get f).connections.entries.filter
            fun x => !ids.any (ConnectionTable.uses x.2.connection)) ∧
        (e.run events).metrics.count .cascaded = e.metrics.count .cascaded + .ofNat (e.through ids)) ∧
      ∀ f, ids.Perm (e.routes.ids (some f)) →
        (∀ event, Resets event f →
          (e.step event).1.routes = (e.run events).routes ∧
            (e.step event).1.connections = (e.run events).connections ∧
            (e.step event).2.events.Perm ((e.answers events).flatMap Answer.events)) ∧
          (e.run events).routes.routes.entries = e.routes.routes.entries.filter (fun x => x.2.family != f) ∧
          ((e.run events).connections.get f).connections.entries = [] ∧
          ∀ g, g ≠ f → (e.run events).connections.get g = e.connections.get g := by
  have sound := h.sound
  have dropped := run_dropped h running sent
  have answers := answers_deregistered h running sent distinct
  have answers' := answers_deregistered h running sent' (order.nodup_iff.2 distinct)
  obtain ⟨routes, connections, cascaded⟩ := dropped.eq_of_perm sound (run_dropped h running sent') order
  refine ⟨⟨answers, answers'⟩, routes, connections, cascaded, ?_, ⟨?_, fun f => ?_, dropped.cascaded⟩,
    fun f all => ?_⟩
  · rw [answers, answers']
    exact (order.map _).flatMap_right _
  · rw [dropped.routes, sound.ids.entries_removeAll]
  · rw [dropped.connections, ConnectionTable.entries_removeAll_usingAny]
  have left : (e.run events).routes = e.routes.removeAll (e.routes.ids (some f)) := by
    rw [dropped.routes]
    exact sound.ids.removeAll_congr fun id => all.mem_iff
  have tables (g : Family) : (e.run events).connections.get g =
      if g = f then (e.connections.get g).clear else e.connections.get g := by
    rw [dropped.connections, ConnectionTable.usingAny_perm _ all, sound.removeAll_ids]
  refine ⟨fun event resets => ?_, ?_, ?_, fun g other => ?_⟩
  · obtain ⟨routes, connections, told⟩ := step_resets running resets
    obtain ⟨routes', connections', told'⟩ := reset_dropped sound f
    refine ⟨?_, ?_, ?_⟩
    · rw [routes, routes', left]
    · rw [connections]
      exact PerFamily.eq_of_get fun g => (connections' g).trans (tables g).symm
    · rw [told, told', answers, List.flatMap_map]
      exact all.symm.flatMap_right _
  · rw [left, sound.entries_removeAll_ids]
  · rw [tables, if_pos rfl]
    rfl
  · rw [tables, if_neg other]

namespace Small

def route6 : Wire.Route := { Wire.Route.ofId 9 with family := some .v6, interface := "eth0", nextHop := .v6 1 }

def connection6 : Wire.Connection :=
  let orig := Wire.Tuple.ofEndpoints (.v6 1) (.v6 2) 3000 80
  Wire.Connection.ofTuples 6 { orig with routeId := 9 } { orig.reversed with routeId := 9 }

/-- A connection goes there through one route and back through another, a second one
through the latter only, and an IPv6 connection through a route of its own. The owner of
the routes has a back-channel. -/
def crossing : List Event :=
  [send .route .register (.route (route 7)), send .route .register (.route (route 8)),
    send .route .register (.route route6),
    send (.connection .v4) .register (.connection (connection 1000 7 8)),
    send (.connection .v4) .register (.connection (connection 2000 8 8)),
    send (.connection .v6) .register (.connection connection6),
    .register Small.client Small.client.address]

def deregister (id : UInt32) : Event := send .route .deregister (.route (.ofId id))

theorem deregister_deregisters {id : UInt32}
    (h : Wire.Record.decode (message .route .deregister (.route (.ofId id))) =
      .ok (some Action.deregister.number, .route (.ofId id))) : Deregisters (deregister id) id :=
  ⟨client, _, 0, .ofId id, rfl, ⟨rfl, rfl, h⟩, rfl⟩

end Small

/-- The connection through both routes goes with whichever is removed first, and is counted
once. -/
theorem removals_commute_small :
    let e := Small.start.run Small.crossing
    let up := [Small.deregister 7, Small.deregister 8]
    let down := [Small.deregister 8, Small.deregister 7]
    e.Reachable ∧ e.running = true ∧ List.Forall₂ Deregisters up [7, 8] ∧ List.Forall₂ Deregisters down [8, 7] ∧
      ((e.step (Small.deregister 7)).1.connections.get .v4).connections.numbers = [2] ∧
      ((e.step (Small.deregister 8)).1.connections.get .v4).connections.numbers = [] ∧
      (e.run down).routes = (e.run up).routes ∧ (e.run down).connections = (e.run up).connections ∧
      (e.run up).metrics.cascaded = 2 ∧ (e.run down).metrics.cascaded = 2 ∧
      (e.step Small.reset).1.routes = (e.run up).routes ∧
      (e.step Small.reset).1.connections = (e.run up).connections ∧
      ((e.run up).connections.get .v6).connections.values.map (·.connection) = [Small.connection6] := by
  intro e up down
  have reachable : e.Reachable := ⟨Small.config, Small.start, Small.crossing, rfl, rfl⟩
  have running : e.running = true := by decide +kernel
  have seven : Deregisters (Small.deregister 7) 7 := Small.deregister_deregisters (by decide +kernel)
  have eight : Deregisters (Small.deregister 8) 8 := Small.deregister_deregisters (by decide +kernel)
  have upward : List.Forall₂ Deregisters up [7, 8] := .cons seven (.cons eight .nil)
  have downward : List.Forall₂ Deregisters down [8, 7] := .cons eight (.cons seven .nil)
  have resets : Resets Small.reset .v4 := ⟨_, _, 0, none, .empty, rfl, rfl, rfl, by decide +kernel⟩
  have all : e.routes.ids (some .v4) = [7, 8] := by decide +kernel
  obtain ⟨-, routes, connections, -, -, -, family⟩ :=
    removals_commute reachable running (by decide) (.swap 7 8 []) upward downward
  obtain ⟨reset, -, -, other⟩ := family .v4 (all ▸ .refl _)
  obtain ⟨routes', connections', -⟩ := reset Small.reset resets
  refine ⟨reachable, running, upward, downward, by decide +kernel, by decide +kernel, routes, connections,
    by decide +kernel, by decide +kernel, routes', connections', ?_⟩
  rw [other .v6 (by decide)]
  decide +kernel

end Engine

end ControlPlane
