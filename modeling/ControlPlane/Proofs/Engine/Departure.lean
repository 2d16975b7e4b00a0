/-
Who is told that a route went away.

A route goes away when it is deregistered, by whatever client, or when its family is
reset, and at no other time. Its owner is then told, if it has a back-channel
(`farewell?`). So the events that answer a message are those for the routes that it took
away, in order (`dispatch_events`), and over a history no route is announced twice: its
number is gone, and no number is given out again.
-/
import ControlPlane.Proofs.Engine.Enumeration
import ControlPlane.Proofs.Engine.Event

namespace ControlPlane

namespace RouteTable

variable {t : RouteTable} {r : Route} {id : UInt32}

theorem Indexed.eq_of_id (h : t.Indexed) {r r' : Route} (hr : r ∈ t.routes.values) (hr' : r' ∈ t.routes.values)
    (hid : r.id = r'.id) : r = r' := by
  have found := h.get?_eq_some_iff.2 ⟨hr, hid⟩
  rw [h.get?_eq_some_iff.2 ⟨hr', rfl⟩] at found
  exact (Option.some.inj found).symm

/-- No two stored routes have one id. -/
theorem Indexed.ids_nodup (h : t.Indexed) : (t.routes.values.map (·.id)).Nodup := by
  have entries : t.routes.entries.Pairwise fun a b => a.2.id ≠ b.2.id := by
    refine List.Pairwise.imp_of_mem ?_ t.routes.table.ascending
    rintro ⟨seq, r⟩ ⟨seq', r'⟩ hr hr' lt hid
    have same := h.id_unique (Sequenced.mem_entries_iff.1 hr) (Sequenced.mem_entries_iff.1 hr') hid
    exact Nat.lt_irrefl seq (same ▸ lt)
  rw [Sequenced.values, SortedMap.values, List.map_map]
  exact entries.map _ fun _ _ hne => hne

theorem Indexed.filter_id (h : t.Indexed) (id : UInt32) :
    t.routes.values.filter (·.id == id) = (t.get? id).toList := by
  have nodup : (t.routes.values.filter (·.id == id)).Nodup := (List.Nodup.of_map _ h.ids_nodup).filter _
  have mem : ∀ r, r ∈ t.routes.values.filter (·.id == id) ↔ t.get? id = some r := by
    intro r
    rw [List.mem_filter, beq_iff_eq, h.get?_eq_some_iff]
  cases found : t.get? id with
  | none =>
    rw [Option.toList_none, List.eq_nil_iff_forall_not_mem]
    intro r hr
    rw [mem, found] at hr
    cases hr
  | some r =>
    refine List.perm_singleton.1 ((List.perm_ext_iff_of_nodup nodup (List.nodup_singleton r)).2 ?_)
    intro r'
    rw [mem, found, List.mem_singleton, Option.some.injEq, eq_comm]

/-- A removal leaves the routes of other ids. -/
theorem Indexed.entries_remove (h : t.Indexed) (id : UInt32) :
    (t.remove id).2.routes.entries = t.routes.entries.filter (·.2.id != id) := by
  have stored : ∀ x ∈ t.routes.entries, x.2.id = id ↔ t.byId.get? id = some x.1 := by
    rintro ⟨seq, r⟩ hx
    rw [Sequenced.mem_entries_iff] at hx
    rw [h id seq]
    constructor
    · intro hid
      exact ⟨r, hx, hid⟩
    · rintro ⟨r', hr', hid⟩
      cases hx.symm.trans hr'
      exact hid
  cases hi : t.byId.get? id with
  | none =>
    have same : (t.remove id).2 = t := by simp [RouteTable.remove, hi]
    rw [same, eq_comm, List.filter_eq_self]
    intro x hx
    rw [bne_iff_ne]
    intro hid
    rw [stored x hx, hi] at hid
    cases hid
  | some seq =>
    simp only [RouteTable.remove, hi, Sequenced.entries_erase]
    refine List.filter_congr fun x hx => ?_
    have same := stored x hx
    rw [hi, Option.some.injEq] at same
    rw [Bool.eq_iff_iff, bne_iff_ne, bne_iff_ne, ne_eq, ne_eq, same, eq_comm]

end RouteTable

namespace Engine

open Wire (Message)

variable {e e' : Engine} {client : ClientId} {event : Event} {m : Message} {now : Nat}

/-- The routes that are stored in an engine and no more in a later one, in order. -/
def departed (e e' : Engine) : List (Nat × Route) :=
  e.routes.routes.entries.filter fun x => decide (x.1 ∉ e'.routes.routes.numbers)

/-- What a route's owner is told when the route goes away: nothing without a
back-channel, and otherwise the route as it was, whether or not the owner was reached
lately. -/
def farewell? (e : Engine) (r : Route) : Option Notification :=
  r.owner.bind fun owner =>
    (e.subscribers.get? owner).map fun subscriber =>
      { client := owner
        backChannel := subscriber.backChannel
        message := { kind := .command, code := Command.route.code, payload := r.toWire.encode .removed } }

theorem tellOwner_eq (e : Engine) (r : Route) : e.tellOwner r = (e.farewell? r).toList := rfl

/-! ## Which routes are gone -/

theorem departed_eq_nil (h : ∀ seq ∈ e.routes.routes.numbers, seq ∈ e'.routes.routes.numbers) :
    e.departed e' = [] := by
  rw [departed, List.filter_eq_nil_iff]
  rintro ⟨seq, r⟩ hx
  have mem := Sequenced.mem_numbers_iff.2 ⟨r, Sequenced.mem_entries_iff.1 hx⟩
  simpa using h seq mem

theorem departed_of_routes (h : e'.routes = e.routes) : e.departed e' = [] :=
  departed_eq_nil fun _ hs => h ▸ hs

/-- Where the routes are the same, nobody is told anything. -/
theorem farewells_of_routes (h : e'.routes = e.routes) :
    (e.departed e').filterMap (fun x => e.farewell? x.2) = [] := by
  rw [departed_of_routes h, List.filterMap_nil]

/-- When the routes with some property stay, the others are gone. -/
theorem departed_of_filter {p : Nat × Route → Bool}
    (h : e'.routes.routes.entries = e.routes.routes.entries.filter p) :
    e.departed e' = e.routes.routes.entries.filter fun x => !p x := by
  refine List.filter_congr fun x hx => ?_
  have mem : x.1 ∈ e'.routes.routes.numbers ↔ p x = true := by
    rw [Sequenced.mem_numbers_iff]
    constructor
    · rintro ⟨r, hr⟩
      rw [← Sequenced.mem_entries_iff, h, List.mem_filter] at hr
      have same : r = x.2 := by
        have := Sequenced.mem_entries_iff.1 hx
        rw [Sequenced.mem_entries_iff.1 hr.1] at this
        exact Option.some.inj this
      rw [same] at hr
      exact hr.2
    · intro hp
      refine ⟨x.2, Sequenced.mem_entries_iff.1 ?_⟩
      rw [h]
      exact List.mem_filter.2 ⟨hx, hp⟩
  cases hp : p x <;> simp [mem, hp]

/-! ## Dropping routes -/

theorem routes_dropRoute (hi : e.routes.Indexed) (id : UInt32) :
    (e.dropRoute id).1.routes = (e.routes.remove id).2 := by
  cases h : e.routes.get? id with
  | some r => rw [dropRoute_of_get? h]
  | none =>
    rw [dropRoute_of_get?_eq_none h]
    cases hb : e.routes.byId.get? id with
    | none => simp [RouteTable.remove, hb]
    | some seq =>
      obtain ⟨r, hr, -⟩ := (hi id seq).1 hb
      simp [RouteTable.get?, hb, hr] at h

theorem events_dropRoute (e : Engine) (id : UInt32) :
    (e.dropRoute id).2.2 = (e.routes.get? id).toList.flatMap e.tellOwner := by
  cases h : e.routes.get? id with
  | some r => rw [dropRoute_of_get? h, Option.toList_some, List.flatMap_singleton]
  | none =>
    rw [dropRoute_of_get?_eq_none h]
    rfl

theorem subscribers_dropRoute (e : Engine) (id : UInt32) : (e.dropRoute id).1.subscribers = e.subscribers :=
  (dropRoute_edits e id).same.subscribers

theorem entries_dropRoutes (hi : e.routes.Indexed) (ids : List UInt32) :
    (e.dropRoutes ids).1.routes.routes.entries =
      e.routes.routes.entries.filter fun x => decide (x.2.id ∉ ids) := by
  induction ids generalizing e with
  | nil => simp [dropRoutes]
  | cons id ids ih =>
    have routes := routes_dropRoute hi id
    have indexed : (e.dropRoute id).1.routes.Indexed := routes ▸ hi.remove id
    rw [fst_dropRoutes_cons, ih indexed, routes, hi.entries_remove id, List.filter_filter]
    refine List.filter_congr fun x _ => ?_
    by_cases hx : x.2.id = id <;> simp [hx]

/-- The owners of dropped routes are told in the order of the ids, each of the route
that was stored before. -/
theorem events_dropRoutes (hi : e.routes.Indexed) {ids : List UInt32} (distinct : ids.Nodup) :
    (e.dropRoutes ids).2 = ids.flatMap fun id => (e.routes.get? id).toList.flatMap e.tellOwner := by
  induction ids generalizing e with
  | nil => rfl
  | cons id ids ih =>
    obtain ⟨hid, distinct⟩ := List.nodup_cons.1 distinct
    have routes := routes_dropRoute hi id
    have indexed : (e.dropRoute id).1.routes.Indexed := routes ▸ hi.remove id
    have rest : ∀ id' ∈ ids, ((e.dropRoute id).1.routes.get? id').toList.flatMap (e.dropRoute id).1.tellOwner =
        (e.routes.get? id').toList.flatMap e.tellOwner := by
      intro id' hm
      have ne : id ≠ id' := fun he => hid (he ▸ hm)
      have told : (e.dropRoute id).1.tellOwner = e.tellOwner := by
        funext r
        rw [tellOwner, tellOwner, subscribers_dropRoute]
      rw [routes, hi.get?_remove, if_neg ne, told]
    show (e.dropRoute id).2.2 ++ ((e.dropRoute id).1.dropRoutes ids).2 = _
    rw [events_dropRoute, ih indexed distinct, List.flatMap_cons, List.flatMap_congr rest]

/-- Dropping the routes with some property by their ids tells the owners of those that
are gone. -/
theorem dropRoutes_farewells (hi : e.routes.Indexed) (p : Route → Bool) {ids : List UInt32}
    (hp : ids = (e.routes.routes.values.filter p).map (·.id)) :
    (e.dropRoutes ids).2 = (e.departed (e.dropRoutes ids).1).filterMap fun x => e.farewell? x.2 := by
  have distinct : ids.Nodup := by
    rw [hp]
    exact hi.ids_nodup.sublist (List.Sublist.map _ List.filter_sublist)
  have dropped : ∀ x ∈ e.routes.routes.entries, x.2.id ∈ ids ↔ p x.2 = true := by
    intro x hx
    have stored : x.2 ∈ e.routes.routes.values := List.mem_map_of_mem hx
    rw [hp]
    simp only [List.mem_map, List.mem_filter]
    constructor
    · rintro ⟨r, ⟨hr, hpr⟩, hid⟩
      exact hi.eq_of_id hr stored hid ▸ hpr
    · intro hpx
      exact ⟨x.2, ⟨stored, hpx⟩, rfl⟩
  have gone : e.departed (e.dropRoutes ids).1 = e.routes.routes.entries.filter fun x => p x.2 := by
    rw [departed_of_filter (entries_dropRoutes hi ids)]
    refine List.filter_congr fun x hx => ?_
    cases hpx : p x.2 <;> simp [dropped x hx, hpx]
  have found : ∀ r ∈ e.routes.routes.values.filter p,
      (e.routes.get? r.id).toList.flatMap e.tellOwner = (e.farewell? r).toList := by
    intro r hr
    rw [hi.get?_eq_some_iff.2 ⟨(List.mem_filter.1 hr).1, rfl⟩, Option.toList_some, List.flatMap_singleton,
      tellOwner_eq]
  calc (e.dropRoutes ids).2
      = (e.routes.routes.values.filter p).flatMap fun r => (e.farewell? r).toList := by
        rw [events_dropRoutes hi distinct, hp, List.flatMap_map]
        exact List.flatMap_congr found
    _ = (e.routes.routes.values.filter p).filterMap e.farewell? := by
        rw [List.filterMap_eq_flatMap_toList]
    _ = (e.departed (e.dropRoutes ids).1).filterMap fun x => e.farewell? x.2 := by
        rw [gone, Sequenced.values, SortedMap.values, List.filter_map, List.filterMap_map]
        rfl

theorem dropRoute_farewells (hi : e.routes.Indexed) (id : UInt32) :
    (e.dropRoute id).2.2 = (e.departed (e.dropRoute id).1).filterMap fun x => e.farewell? x.2 := by
  have ids : (e.routes.get? id).toList.map (·.id) =
      (e.routes.routes.values.filter (·.id == id)).map (·.id) := by
    rw [hi.filter_id]
  have told := dropRoutes_farewells hi (·.id == id) ids
  cases h : e.routes.get? id with
  | none =>
    rw [dropRoute_of_get?_eq_none h, farewells_of_routes rfl]
  | some r =>
    obtain ⟨-, rfl⟩ := hi.get?_eq_some_iff.1 h
    simp only [h, Option.toList_some, List.map_cons, List.map_nil, dropRoutes, List.append_nil] at told
    exact told

theorem reset_farewells (hi : e.routes.Indexed) (f : Family) :
    (e.reset f).2 = (e.departed (e.reset f).1).filterMap fun x => e.farewell? x.2 :=
  dropRoutes_farewells (e := e.withConnections f (e.connections.get f).clear) hi
    (fun r => (some f).all (r.family == ·)) rfl

/-! ## Messages -/

theorem handleRoute_farewells (hi : e.routes.Indexed) (action : Action) (r : Wire.Route) :
    let o := e.handleRoute client action r
    o.events = (e.departed o.engine).filterMap fun x => e.farewell? x.2 := by
  intro o
  have handled := handleRoute_handled e client action r
  change RouteHandled e client action r o at handled
  generalize o = outcome at handled ⊢
  cases handled with
  | registered _ _ _ ht =>
    obtain ⟨-, rfl⟩ := RouteTable.add_eq_ok_iff.1 ht
    rw [departed_eq_nil fun seq hs => ?_, List.filterMap_nil]
    obtain ⟨r', hr'⟩ := Sequenced.mem_numbers_iff.1 hs
    have old : seq ≠ e.routes.routes.next := Nat.ne_of_lt (Nat.lt_succ_of_le (Sequenced.le_last hr'))
    exact Sequenced.mem_numbers_iff.2 ⟨r', by simp [Sequenced.get?_push, old, hr']⟩
  | dropped => exact dropRoute_farewells hi r.id
  | listed =>
    obtain ⟨c, hc⟩ := list_engine e .routes action
    rw [events_list, hc]
    exact (farewells_of_routes rfl).symm
  | refused => exact (farewells_of_routes rfl).symm

/-- A command brings events just for the routes that it takes away. -/
theorem perform_farewells (hi : e.routes.Indexed) (client : ClientId) (command : Command)
    (action : Option Action) (r : Wire.Record) (now : Nat) :
    let o := e.perform client command action r now
    o.events = (e.departed o.engine).filterMap fun x => e.farewell? x.2 := by
  intro o
  have performed := perform_performed e client command action r now
  change Performed e client now command action r o at performed
  generalize o = outcome at performed
  cases performed with
  | route => exact handleRoute_farewells hi ..
  | connection f action c =>
    have same := (handleConnection_writes e action c now f).routes (by simp) (by simp)
    rw [events_handleConnection, farewells_of_routes same]
  | reset => exact reset_farewells hi ..
  | beside _ routes _ _ events => rw [events, farewells_of_routes routes]

theorem dispatch_farewells (hi : e.routes.Indexed) (client : ClientId) (m : Message) (now : Nat) :
    let o := e.dispatch client m now
    o.events = (e.departed o.engine).filterMap fun x => e.farewell? x.2 := by
  intro o
  have answered : Answered e client m now o := dispatch_answered e client m now
  generalize o = o' at answered
  cases answered with
  | @performed command action r => exact perform_farewells hi client command action r now
  | joined | left | refused => exact (farewells_of_routes rfl).symm

/-! ## Histories -/

/-- The events that an answer brings. -/
def Answer.events : Answer → List Notification
  | .replied _ events | .notified events => events
  | .malformed _ | .known _ | .status _ | .done => []

/-- Those of them that say that a route went away. -/
def Answer.farewells (answer : Answer) : List Notification :=
  answer.events.filter fun n => n.message.code == Command.route.code

/-- What owners are told of the routes that an event takes away, with the numbers of
the routes. -/
def announcements (e : Engine) (event : Event) : List (Nat × Notification) :=
  (e.departed (e.step event).1).filterMap fun x => (e.farewell? x.2).map fun n => (x.1, n)

/-- The same for a history. -/
def announced (e : Engine) : List Event → List (Nat × Notification)
  | [] => []
  | event :: history => e.announcements event ++ (e.step event).1.announced history

theorem code_of_farewell {r : Route} {n : Notification} (h : e.farewell? r = some n) :
    n.message.code = Command.route.code := by
  obtain ⟨owner, -, h⟩ := Option.bind_eq_some_iff.1 h
  obtain ⟨subscriber, -, rfl⟩ := Option.map_eq_some_iff.1 h
  rfl

theorem filter_eq_nil_of_broadcast {s : Subscribers} {message : Message}
    (h : message.code ≠ Command.route.code) :
    (s.broadcast message).filter (fun n => n.message.code == Command.route.code) = [] := by
  rw [List.filter_eq_nil_iff]
  intro n hn
  rw [(Subscribers.mem_broadcast.1 hn).1]
  simpa using h

theorem ageFamily_quiet (e : Engine) (f : Family) (now : Nat) :
    (e.ageFamily f now).2.filter (fun n => n.message.code == Command.route.code) = [] := by
  have other : ∀ c : Wire.Connection, (connectionRemoved c).code ≠ Command.route.code := by
    intro c
    show (Command.connectionChange c.family).code ≠ Command.route.code
    cases c.family <;> decide
  show (List.flatMap _ _).filter _ = []
  rw [List.filter_flatMap, List.flatMap_eq_nil_iff]
  exact fun c _ => filter_eq_nil_of_broadcast (other c)

theorem age_quiet (e : Engine) (now : Nat) : (Answer.notified (e.age now).2).farewells = [] := by
  obtain running | stopped := Bool.eq_false_or_eq_true e.running
  · have both : (e.age now).2 = (e.ageFamily .v4 now).2 ++ ((e.ageFamily .v4 now).1.ageFamily .v6 now).2 := by
      simp [age, running]
    rw [both]
    show List.filter _ (_ ++ _) = []
    rw [List.filter_append, ageFamily_quiet, ageFamily_quiet, List.append_nil]
  · rw [age_of_not_running stopped]
    rfl

theorem numbers_modify_routes (t : RouteTable) (id : UInt32) (f : Route → Route) :
    (t.modify id f).routes.numbers = t.routes.numbers := by
  unfold RouteTable.modify
  split
  · rfl
  · exact Sequenced.numbers_modify ..

theorem departed_account (e : Engine) (f : Family) (key : FlowKey) (octets : UInt64) (now : Nat) :
    e.departed (e.account f key octets now).1 = [] := by
  refine departed_eq_nil fun seq hs => ?_
  obtain ⟨-, missed⟩ | ⟨_, _, _, -, -, counted⟩ := account_cases e f key octets now
  · rwa [missed]
  · rwa [counted, numbers_modify_routes]

/-- What an event tells of routes is what it tells their owners of those that it takes
away. -/
theorem step_farewells (hi : e.routes.Indexed) (event : Event) :
    (e.step event).2.farewells = (e.departed (e.step event).1).filterMap fun x => e.farewell? x.2 := by
  induction event using Event.byMessage with
  | message event client m now hm =>
    rw [step_of_message hm]
    have told := dispatch_farewells hi client m now
    show List.filter _ (e.dispatch client m now).events = _
    rw [told, List.filter_eq_self]
    intro n hn
    obtain ⟨x, -, hx⟩ := List.mem_filterMap.1 hn
    simpa using code_of_farewell hx
  | malformed client octets now error hd =>
    rw [step_of_malformed hd]
    exact (farewells_of_routes rfl).symm
  | age now =>
    obtain ⟨_, _, aged⟩ := age_writes e now
    show (Answer.notified (e.age now).2).farewells = (e.departed (e.age now).1).filterMap _
    rw [age_quiet, farewells_of_routes (by rw [aged])]
  | packet f key octets now =>
    show [] = (e.departed (e.account f key octets now).1).filterMap _
    rw [departed_account]
    rfl
  | health h =>
    show (e.health h).filter _ = _
    have other : Command.healthEvent.code ≠ Command.route.code := by decide
    rw [health, filter_eq_nil_of_broadcast other]
    exact (farewells_of_routes rfl).symm
  | acquire client =>
    simp only [Engine.step]
    cases hs : e.acquire client with
    | error _ => exact (farewells_of_routes rfl).symm
    | ok e' =>
      obtain ⟨session, -, rfl⟩ := map_eq_ok_iff.1 hs
      exact (farewells_of_routes rfl).symm
  | shutdown =>
    obtain ⟨_, _, _, _, stopped⟩ := shutdown_writes e
    have same : (e.step .shutdown).1.routes = e.routes := by
      show e.shutdown.routes = e.routes
      rw [stopped]
    rw [farewells_of_routes same]
    rfl
  | register | unregister | unreachable | release => exact (farewells_of_routes rfl).symm

theorem mem_announcements {seq : Nat} (h : seq ∈ (e.announcements event).map (·.1)) :
    seq ∈ e.routes.routes.numbers ∧ seq ∉ (e.step event).1.routes.routes.numbers := by
  obtain ⟨⟨_, n⟩, hx, rfl⟩ := List.mem_map.1 h
  obtain ⟨⟨seq, r⟩, hd, hf⟩ := List.mem_filterMap.1 hx
  obtain ⟨n', -, heq⟩ := Option.map_eq_some_iff.1 hf
  cases heq
  obtain ⟨stored, gone⟩ := List.mem_filter.1 hd
  exact ⟨Sequenced.mem_numbers_iff.2 ⟨r, Sequenced.mem_entries_iff.1 stored⟩, by simpa using gone⟩

theorem announcements_nodup (e : Engine) (event : Event) : ((e.announcements event).map (·.1)).Nodup := by
  have ascending : (e.departed (e.step event).1).Pairwise fun x y => rank x.1 < rank y.1 :=
    e.routes.routes.table.ascending.filter _
  rw [announcements, List.Nodup, List.pairwise_map, List.pairwise_filterMap]
  refine ascending.imp fun {x y} lt n hn n' hn' same => ?_
  obtain ⟨_, -, rfl⟩ := Option.map_eq_some_iff.1 hn
  obtain ⟨_, -, rfl⟩ := Option.map_eq_some_iff.1 hn'
  exact Nat.lt_irrefl _ (same ▸ lt)

/-- A route that is announced in a history was stored at its start or registered in
it. -/
theorem mem_announced {history : List Event} {seq : Nat} (h : seq ∈ (e.announced history).map (·.1)) :
    seq ∈ e.routes.routes.numbers ∨ e.routes.routes.last < seq := by
  induction history generalizing e with
  | nil => cases h
  | cons event history ih =>
    rw [announced, List.map_append, List.mem_append] at h
    obtain h | h := h
    · exact .inl (mem_announcements h).1
    · have grows := routes_grow e event
      by_cases old : seq ≤ e.routes.routes.last
      · have stored := (ih h).resolve_right (Nat.not_lt_of_le (Nat.le_trans old grows.last_le))
        exact .inl (grows.old seq stored old)
      · exact .inr (Nat.lt_of_not_le old)

/-- What is gone is not announced again, as no later route gets its number. -/
theorem not_mem_announced {history : List Event} {seq : Nat} (issued : seq ≤ e.routes.routes.last)
    (gone : seq ∉ e.routes.routes.numbers) : seq ∉ (e.announced history).map (·.1) := by
  intro h
  obtain stored | younger := mem_announced h
  · exact gone stored
  · exact Nat.not_lt_of_le issued younger

theorem issued_of_announcements {seq : Nat} (h : seq ∈ (e.announcements event).map (·.1)) :
    seq ≤ (e.step event).1.routes.routes.last := by
  obtain ⟨r, hr⟩ := Sequenced.mem_numbers_iff.1 (mem_announcements h).1
  exact Nat.le_trans (Sequenced.le_last hr) (routes_grow e event).last_le

theorem announced_nodup (e : Engine) (history : List Event) : ((e.announced history).map (·.1)).Nodup := by
  induction history generalizing e with
  | nil => exact List.nodup_nil
  | cons event history ih =>
    rw [announced, List.map_append, List.nodup_append']
    refine ⟨announcements_nodup e event, ih _, fun seq now later => ?_⟩
    exact not_mem_announced (issued_of_announcements now) (mem_announcements now).2 later

/-- What was announced is not stored any more. -/
theorem gone_of_announced {history : List Event} {seq : Nat} (h : seq ∈ (e.announced history).map (·.1)) :
    seq ∉ (e.run history).routes.routes.numbers := by
  induction history generalizing e with
  | nil => cases h
  | cons event history ih =>
    rw [announced, List.map_append, List.mem_append] at h
    obtain h | h := h
    · intro stored
      have grows := run_routes_grow (e.step event).1 history
      exact (mem_announcements h).2 (grows.old seq stored (issued_of_announcements h))
    · exact ih h

theorem announced_eq (h : e.Reachable) (history : List Event) :
    (e.answers history).flatMap Answer.farewells = (e.announced history).map (·.2) := by
  induction history generalizing e with
  | nil => rfl
  | cons event history ih =>
    have told := step_farewells h.sound.ids event
    have numbered : (e.announcements event).map (·.2) =
        (e.departed (e.step event).1).filterMap fun x => e.farewell? x.2 := by
      rw [announcements, List.map_filterMap]
      refine List.filterMap_congr fun x _ => ?_
      simp [Option.map_map, Function.comp_def]
    rw [answers, announced, List.flatMap_cons, List.map_append, told, numbered, ih (h.step event)]

/-! ## Main result -/

/-- **Events about removed routes are exact.** The events that answer a message are one
for each route that is stored before it and not after it and whose owner has a
back-channel, in order of registration. In any history what is told of removed routes is
told of routes that are gone, and of each but once. -/
theorem removals_announced {e : Engine} (h : e.Reachable) :
    (∀ client m now, let o := e.dispatch client m now
      o.events = (e.departed o.engine).filterMap fun x => e.farewell? x.2) ∧
      ∀ history, (e.answers history).flatMap Answer.farewells = (e.announced history).map (·.2) ∧
        ((e.announced history).map (·.1)).Nodup ∧
        ∀ seq ∈ (e.announced history).map (·.1), seq ∉ (e.run history).routes.routes.numbers := by
  refine ⟨fun client m now => dispatch_farewells h.sound.ids client m now, fun history => ?_⟩
  exact ⟨announced_eq h history, announced_nodup e history, fun seq => gone_of_announced⟩

namespace Small

/-- The owner of two routes announces a back-channel, a packet goes through the first,
and then the owner is not reached. -/
def owned : List Event :=
  [send .route .register (.route (route 8)), .register Small.client Small.client.address,
    .packet .v4 ((connection 1000 7 7).key .orig) 100 0, .unreachable Small.client]

/-- A client of which nothing is known resets the family. -/
def reset : Event := .message ⟨{ Small.client.address with port := 7001 }⟩ (message (.reset .v4) .register .empty) 0

end Small

theorem removals_announced_small :
    let e := Small.engine.run Small.owned
    let told := (e.announced [Small.reset, Small.send .route .register (.route (Small.route 7)), Small.reset])
    e.Reachable ∧ told.map (·.1) = [1, 2, 3] ∧ (told.map (·.1)).Nodup ∧
      (e.step Small.reset).2.farewells.map (·.message.payload) =
        [{ Small.route 7 with hits := 1 }, Small.route 8].map (·.encode .removed) := by
  intro e told
  have reachable : e.Reachable := Small.engine_reachable.run _
  obtain ⟨-, histories⟩ := removals_announced reachable
  obtain ⟨-, once, -⟩ := histories
    [Small.reset, Small.send .route .register (.route (Small.route 7)), Small.reset]
  exact ⟨reachable, by decide +kernel, once, by decide +kernel⟩

end Engine

end ControlPlane
