/-
Which routes are stored, and in what order.

Commands that are answered with `Status.ok` change the routes: a registration, a
deregistration, a reset. The changes alone tell what is stored (`run_changed`): the n-th
registration has number n and stays until a later change takes it away, so what is stored are
the registrations that survived, in their order (`survivors`). One event makes at most one
change (`step_changed`); changes after changes are composed by `Changed.trans`.

The index of ids is exact in every state, so all ways to look into the table say the same
(`Indexed.coherent`), and a listing that nothing interferes with gives the stored routes in
their order (`answers_of_ahead`). The interface that a route names is there, under the id
that the route has (`Reachable.resolves`).
-/
import ControlPlane.Proofs.Datagram.Listing
import ControlPlane.Proofs.Engine.Removal

namespace ControlPlane

/-! ## Changes -/

/-- A registration of a route: the client, and the record without what was counted. -/
structure Admission where
  owner : Option ClientId
  record : Wire.Route
  deriving DecidableEq

/-- What a stored route was registered with. -/
def Route.admission (r : Route) : Admission := ⟨r.owner, { r.toWire with hits := 0 }⟩

/-- A change of the routes. -/
inductive RouteChange where
  | registered (client : ClientId) (record : Wire.Route)
  | deregistered (id : UInt32)
  | reset (f : Family)

namespace RouteChange

/-- The change that a command asks for. -/
def ofCommand? (client : ClientId) : Command → Option Action → Wire.Record → Option RouteChange
  | .route, some .register, .route r => some (.registered client r)
  | .route, some .deregister, .route r => some (.deregistered r.id)
  | .reset f, _, _ => some (.reset f)
  | _, _, _ => none

def registers : RouteChange → Bool
  | .registered .. => true
  | .deregistered _ | .reset _ => false

/-- Whether a change takes away the route of a record. -/
def takes (record : Wire.Route) : RouteChange → Bool
  | .registered .. => false
  | .deregistered id => record.id == id
  | .reset f => record.family == some f

/-- The registrations that no later change takes away. They are numbered behind the last
number that was given out. -/
def survivors (last : Nat) : List RouteChange → List (Nat × Admission)
  | [] => []
  | .registered client record :: changes =>
    if changes.any (takes record) then survivors (last + 1) changes
    else (last + 1, ⟨some client, { record with hits := 0 }⟩) :: survivors (last + 1) changes
  | .deregistered _ :: changes | .reset _ :: changes => survivors last changes

variable {last : Nat} {changes more : List RouteChange}

/-- Of the survivors of some changes later ones leave those that they do not take away, and
have survivors of their own. -/
theorem survivors_append (last : Nat) (changes more : List RouteChange) :
    survivors last (changes ++ more) =
      (survivors last changes).filter (fun x => !more.any (takes x.2.record)) ++
        survivors (last + changes.countP registers) more := by
  induction changes generalizing last with
  | nil => rfl
  | cons change changes ih =>
    cases change with
    | deregistered | reset => exact ih last
    | registered client record =>
      have count : last + (registered client record :: changes).countP registers =
          last + 1 + changes.countP registers := by
        rw [List.countP_cons_of_pos rfl]
        omega
      -- What is counted of a record makes no difference to what takes it away.
      have hits : takes { record with hits := 0 } = takes record := by
        funext change
        cases change <;> rfl
      rw [List.cons_append, survivors, survivors, ih, count, List.any_append]
      cases changes.any (takes record) with
      | true => rfl
      | false => cases taken : more.any (takes record) <;> simp [hits, taken]

end RouteChange

namespace RouteTable

open RouteChange (survivors takes registers)

variable {t t' t'' : RouteTable} {changes changes' : List RouteChange}

/-- What the routes were registered with, under their numbers. -/
def admissions (t : RouteTable) : Sequenced Admission := t.routes.map Route.admission

/-- A table and what changes make of it. -/
structure Changed (t : RouteTable) (changes : List RouteChange) (t' : RouteTable) : Prop where
  entries : t'.admissions.entries =
    (t.admissions.entries.filter fun x => !changes.any (takes x.2.record)) ++ survivors t.routes.last changes
  last : t'.routes.last = t.routes.last + changes.countP registers

/-- What is counted is no change. -/
theorem Changed.of_admissions (same : t'.admissions = t.admissions) : Changed t [] t' where
  entries := by simp [same, survivors]
  last := by
    show t'.admissions.last = _
    rw [same]
    rfl

theorem Changed.refl (t : RouteTable) : Changed t [] t := .of_admissions rfl

/-- Changes after changes. -/
theorem Changed.trans (first : Changed t changes t') (rest : Changed t' changes' t'') :
    Changed t (changes ++ changes') t'' where
  entries := by
    rw [rest.entries, first.entries, first.last, RouteChange.survivors_append, List.filter_append,
      List.filter_filter, List.append_assoc]
    simp only [List.any_append, Bool.not_or, Bool.and_comm]
  last := by rw [rest.last, first.last, List.countP_append, Nat.add_assoc]

/-- A registration goes behind all others. -/
theorem Changed.of_add {record : Wire.Route} {f : Family} {egress : Interface} {client : ClientId}
    (family : record.family = some f) (named : egress.name = record.interface)
    (added : t.add (.registered record f egress (some client)) = .ok t') :
    Changed t [.registered client record] t' := by
  obtain ⟨-, rfl⟩ := add_eq_ok_iff.1 added
  have admission : (Route.registered record f egress (some client)).admission =
      ⟨some client, { record with hits := 0 }⟩ := by
    simp only [Route.admission, Route.toWire, Route.registered, named, ← family]
  refine ⟨?_, rfl⟩
  simp [admissions, Sequenced.map, SortedMap.map, Sequenced.entries, Sequenced.push, admission, survivors,
    Sequenced.next, RouteChange.takes]

/-- Other changes only take routes away. -/
theorem Changed.of_filter {change : RouteChange} (removes : change.registers = false)
    (entries : t'.routes.entries = t.routes.entries.filter fun x => !change.takes x.2.toWire)
    (last : t'.routes.last = t.routes.last) : Changed t [change] t' where
  entries := by
    have none : survivors t.routes.last [change] = [] := by
      cases change with
      | registered => cases removes
      | deregistered | reset => rfl
    have hits (r : Route) : change.takes r.admission.record = change.takes r.toWire := by
      cases change <;> rfl
    show t'.routes.entries.map _ = (t.routes.entries.map _).filter _ ++ _
    rw [none, List.append_nil, entries, List.filter_map]
    simp [Function.comp_def, hits]
  last := by rw [last, List.countP_cons_of_neg (by simp [removes]), List.countP_nil, Nat.add_zero]

theorem Indexed.changed_remove (h : t.Indexed) (id : UInt32) :
    Changed t [.deregistered id] (t.remove id).2 :=
  .of_filter rfl (h.entries_remove id) (last_remove t id)

/-- What is counted of a route is not part of its registration. -/
theorem admissions_modify (t : RouteTable) (id : UInt32) :
    (t.modify id fun r => { r with hits := r.hits + 1 }).admissions = t.admissions := by
  unfold modify
  split
  · rfl
  · refine Sequenced.map_modify ?_ t.routes _
    intro r
    rfl

end RouteTable

/-! ## Messages and other events -/

/-- The change of the routes that a message of a client asks for. -/
def Wire.Message.routeChange? (client : ClientId) (m : Wire.Message) : Option RouteChange :=
  match m.kind, Command.ofCode? m.code, Wire.Record.decode m with
  | .command, some command, .ok (n, record) =>
    RouteChange.ofCommand? client command (n.bind Action.ofNumber?) record
  | _, _, _ => none

namespace Engine

open Wire (Message)

variable {e : Engine} {event : Event} {client : ClientId} {m : Message} {now : Nat}
  {command : Command} {action : Option Action} {record : Wire.Record}

theorem routeChange?_of_carries (h : m.Carries command action record) (client : ClientId) :
    m.routeChange? client = RouteChange.ofCommand? client command action record := by
  cases action <;> simp [Wire.Message.routeChange?, h.1, h.command_eq, h.2.2]

/-- The change of the routes that an event makes: it is asked for, and answered with
`Status.ok`. -/
def routeChange? (e : Engine) (event : Event) : Option RouteChange :=
  match event.message? with
  | some (client, m, now) =>
    if (e.dispatch client m now).reply.status = .ok then m.routeChange? client else none
  | none => none

/-- The changes of the routes in a history. -/
def routeChanges (e : Engine) : List Event → List RouteChange
  | [] => []
  | event :: history => (e.routeChange? event).toList ++ (e.step event).1.routeChanges history

/-- The change that comes of a command with an answer. -/
def changeOf (client : ClientId) (command : Command) (action : Option Action) (record : Wire.Record)
    (status : Status) : List RouteChange :=
  if status = .ok then (RouteChange.ofCommand? client command action record).toList else []

theorem changeOf_eq_nil {status : Status} (h : RouteChange.ofCommand? client command action record = none) :
    changeOf client command action record status = [] := by
  rw [changeOf, h, Option.toList_none, ite_self]

theorem handleRoute_changed (h : e.Sound) (client : ClientId) (action : Action) (r : Wire.Route) :
    e.routes.Changed
      (changeOf client .route (some action) (.route r) (e.handleRoute client action r).reply.status)
      (e.handleRoute client action r).engine.routes := by
  have handled := handleRoute_handled e client action r
  generalize e.handleRoute client action r = o at handled
  cases handled with
  | registered ha hf hi ht =>
    subst ha
    exact .of_add hf (InterfaceTable.resolve?_eq_some_iff.1 hi).2 ht
  | dropped ha =>
    subst ha
    cases found : e.routes.get? r.id with
    | none =>
      rw [dropRoute_of_get?_eq_none found]
      exact .refl _
    | some old =>
      rw [dropRoute_of_get? found]
      exact h.ids.changed_remove r.id
  | listed lists =>
    obtain ⟨c, listed⟩ := list_engine e .routes action
    have none : RouteChange.ofCommand? client .route (some action) (.route r) = none := by
      cases action <;> first | rfl | cases lists
    rw [changeOf_eq_nil none, listed]
    exact .refl _
  | @refused status hs =>
    have unchanged : changeOf client .route (some action) (.route r) status = [] := if_neg hs
    show e.routes.Changed (changeOf client .route (some action) (.route r) status) e.routes
    rw [unchanged]
    exact .refl _

theorem reset_changed (h : e.Sound) (f : Family) : e.routes.Changed [.reset f] (e.reset f).1.routes := by
  obtain ⟨routes, -, -⟩ := reset_dropped h f
  rw [routes]
  refine .of_filter rfl ?_ (RouteTable.last_removeAll ..)
  rw [h.entries_removeAll_ids]
  refine List.filter_congr fun x _ => ?_
  simp [RouteChange.takes, Route.toWire, bne]

/-- A command changes the routes as it asks to, if it is answered with `Status.ok`. -/
theorem perform_changed (h : e.Sound) (client : ClientId) (command : Command) (action : Option Action)
    (record : Wire.Record) (now : Nat) :
    e.routes.Changed
      (changeOf client command action record (e.perform client command action record now).reply.status)
      (e.perform client command action record now).engine.routes := by
  cases asks : RouteChange.ofCommand? client command action record with
  | some change =>
    unfold RouteChange.ofCommand? at asks
    split at asks
    · next r => exact handleRoute_changed h client .register r
    · next r => exact handleRoute_changed h client .deregister r
    · next f => exact reset_changed h f
    · cases asks
  | none =>
    rw [changeOf_eq_nil asks]
    -- commands on routes were dealt with above, for whatever action they have
    have performed := perform_performed e client command action record now
    generalize e.perform client command action record now = o at performed
    cases performed with
    | route action r =>
      have changed := handleRoute_changed h client action r
      rwa [changeOf_eq_nil asks] at changed
    | connection f action c =>
      rw [(handleConnection_writes e action c now f).routes (by simp) (by simp)]
      exact .refl _
    | reset => cases asks
    | beside _ routes =>
      rw [routes]
      exact .refl _

theorem dispatch_changed (h : e.Sound) (hm : event.message? = some (client, m, now)) :
    e.routes.Changed (e.routeChange? event).toList (e.dispatch client m now).engine.routes := by
  simp only [routeChange?, hm]
  have answered := dispatch_answered e client m now
  generalize e.dispatch client m now = o at answered
  cases answered with
  | @performed command action record metrics running carries =>
    rw [routeChange?_of_carries carries, apply_ite Option.toList]
    exact perform_changed h client command action record now
  | joined _ _ _ hk | left _ _ hk =>
    have none : m.routeChange? client = none := by simp [Wire.Message.routeChange?, hk]
    rw [none, ite_self]
    exact .refl _
  | refused status _ hs =>
    have unchanged : (if status = .ok then m.routeChange? client else none) = none := if_neg hs
    show e.routes.Changed (if status = .ok then m.routeChange? client else none).toList e.routes
    rw [unchanged]
    exact .refl _

/-- An event makes at most one change of the routes. -/
theorem step_changed (h : e.Sound) (event : Event) :
    e.routes.Changed (e.routeChange? event).toList (e.step event).1.routes := by
  induction event using Event.byMessage with
  | message event client m now hm =>
    rw [step_of_message hm]
    exact dispatch_changed h hm
  | malformed client octets now error hd =>
    have none : e.routeChange? (.datagram client octets now) = none := by
      simp [routeChange?, Event.message?, hd, Except.toOption]
    rw [step_of_malformed hd, none]
    exact .refl _
  | age now =>
    obtain ⟨_, _, aged⟩ := age_writes e now
    have same : (e.step (.age now)).1.routes = e.routes := by
      show (e.age now).1.routes = e.routes
      rw [aged]
    rw [same]
    exact .refl _
  | packet f key octets now =>
    refine .of_admissions ?_
    show (e.account f key octets now).1.routes.admissions = _
    obtain ⟨-, missed⟩ | ⟨_, _, _, -, -, counted⟩ := account_cases e f key octets now
    · rw [missed]
    · rw [counted]
      exact RouteTable.admissions_modify ..
  | acquire client =>
    obtain ⟨_, acquired⟩ := acquire_writes e client
    rw [acquired]
    exact .refl _
  | shutdown =>
    obtain ⟨_, _, _, _, stopped⟩ := shutdown_writes e
    have same : (e.step .shutdown).1.routes = e.routes := by
      show e.shutdown.routes = e.routes
      rw [stopped]
    rw [same]
    exact .refl _
  | health | register | unregister | unreachable | release => exact .refl _

/-- The changes in a history tell what is stored after it. -/
theorem run_changed (h : e.Reachable) (history : List Event) :
    e.routes.Changed (e.routeChanges history) (e.run history).routes := by
  induction history generalizing e with
  | nil => exact .refl _
  | cons event history ih => exact (step_changed h.sound event).trans (ih (h.step event))

/-! ## Listings -/

/-- The answers to one question and those that follow it: the records, and that there are no
more. -/
def inTurn {α : Type} (code : UInt16) (encode : Action → α → Bytes) (action : Action) :
    List α → List Answer
  | [] => [.replied ((Wire.Reply.ofStatus .entryNotFound).toMessage code) []]
  | a :: rest =>
    .replied (Wire.Reply.toMessage ⟨.ok, encode action a⟩ code) [] :: inTurn code encode .queryCont rest

theorem answer_of_asks {resource : Resource} {action : Action} (running : e.running = true)
    (asks : event.asks? = some (resource, action)) :
    (e.step event).2 =
      .replied ((e.list resource action).reply.toMessage resource.command.code)
        (e.list resource action).events := by
  obtain ⟨⟨client, m, now⟩, hm, ha⟩ := Option.bind_eq_some_iff.1 asks
  obtain ⟨-, _, -, code, -⟩ := Message.asks?_eq_some ha
  rw [step_of_message hm, dispatch_of_asks running ha, ← code]

/-- Questions that nothing comes between get what is ahead of the cursor. -/
theorem answers_of_ahead {α : Type} {resource : Resource} {t : Sequenced α} {encode : Action → α → Bytes}
    (running : e.running = true) (table : ∀ action, e.records resource action = t.map (encode action))
    {rest : List (Nat × α)} {cursor : Cursor} {metrics : Metrics} {first : Event} {events : List Event}
    {action : Action} (ahead : cursor.ahead (action == .query) t.table = rest)
    (asks : first.asks? = some (resource, action))
    (goesOn : ∀ event ∈ events, event.asks? = some (resource, .queryCont))
    (enough : events.length = rest.length) :
    (e.listing resource cursor metrics).answers (first :: events) =
      inTurn resource.command.code encode action (rest.map (·.2)) := by
  -- by induction on what is ahead: one answer takes the first of it and moves the cursor behind
  have running' : (e.listing resource cursor metrics).running = true := by rw [running_listing, running]
  have answer := answer_of_asks running' asks
  induction rest generalizing cursor metrics first events action with
  | nil =>
    rw [List.length_eq_zero_iff.1 enough, answers, answers, answer, list_of_ahead_nil (table action) ahead]
    rfl
  | cons d rest ih =>
    obtain ⟨second, events, rfl⟩ := List.exists_cons_of_length_eq_add_one enough
    obtain ⟨asks', goesOn⟩ := List.forall_mem_cons.1 goesOn
    obtain ⟨metrics', stepped⟩ := step_of_asks running' asks
    rw [list_of_ahead_cons (table action) ahead] at answer stepped
    have after : ((e.listing resource cursor metrics).step first).1 =
        e.listing resource (.behind d.1) metrics' := by
      rw [stepped, listing_listing]
    have running'' : (e.listing resource (.behind d.1) metrics').running = true := by
      rw [running_listing, running]
    rw [answers, answer, after, ih (Cursor.ahead_of_given ahead) asks' goesOn (Nat.succ.inj enough) running''
      (answer_of_asks running'' asks')]
    rfl

end Engine

/-! ## Looking into the table -/

namespace RouteTable

/-- All ways to look into a table of routes say the same. -/
structure Coherent (t : RouteTable) : Prop where
  index : ∀ id seq, t.byId.get? id = some seq ↔ ∃ r, t.routes.get? seq = some r ∧ r.id = id
  unique : (t.ids none).Nodup
  found : ∀ id r, t.get? id = some r ↔ r ∈ t.routes.values ∧ r.id = id
  known : ∀ id, t.contains id = (t.get? id).isSome
  listed : ∀ id, id ∈ t.ids none ↔ t.contains id = true
  ofFamily : ∀ f, t.ids (some f) = (t.ids none).filter fun id => (t.get? id).any (·.family == f)

theorem ids_none (t : RouteTable) : t.ids none = t.routes.values.map (·.id) := by
  simp [ids]

theorem Indexed.coherent {t : RouteTable} (h : t.Indexed) : t.Coherent where
  index := h
  unique := by
    rw [ids_none]
    exact h.ids_nodup
  found _ _ := h.get?_eq_some_iff
  known := h.contains_eq
  listed id := by
    rw [ids_none, h.contains_eq, Option.isSome_iff_exists, List.mem_map]
    exact exists_congr fun r => h.get?_eq_some_iff.symm
  ofFamily f := by
    rw [ids_none, List.filter_map]
    refine congrArg (List.map _) (List.filter_congr fun r stored => ?_)
    have found : t.get? r.id = some r := h.get?_eq_some_iff.2 ⟨stored, rfl⟩
    rw [Function.comp, found]
    rfl

end RouteTable

/-! ## Where routes lead -/

/-- The interface that a route names is there, under the id that the route has. -/
def Route.Resolves (t : InterfaceTable) (r : Route) : Prop :=
  ∃ i, t.resolve? r.egress = some i ∧ i.id = r.egressId

/-- The flags of an interface make no difference. -/
theorem Route.Resolves.of_frame {t t' : InterfaceTable} {r : Route} (h : r.Resolves t)
    (same : t'.frame = t.frame) : r.Resolves t' := by
  obtain ⟨i, found, id⟩ := h
  obtain ⟨stored, name⟩ := InterfaceTable.resolve?_eq_some_iff.1 found
  have framed : { i with enabled := false, promiscuous := false } ∈ t'.frame.values := by
    rw [same, InterfaceTable.frame, Sequenced.values_map]
    exact List.mem_map_of_mem stored
  rw [InterfaceTable.frame, Sequenced.values_map, List.mem_map] at framed
  obtain ⟨j, there, alike⟩ := framed
  have name' := congrArg Interface.name alike
  have id' := congrArg Interface.id alike
  exact ⟨j, InterfaceTable.resolve?_eq_some_iff.2 ⟨there, name'.trans name⟩, id'.trans id⟩

namespace Engine

variable {e : Engine} {event : Event}

theorem step_resolves (h : e.routes.All (Route.Resolves e.interfaces)) (event : Event) :
    (e.step event).1.routes.All (Route.Resolves (e.step event).1.interfaces) := by
  have all : (e.step event).1.routes.All (Route.Resolves e.interfaces) := by
    refine step_all h (fun r resolves => resolves) ?_
    intro client m now r _ _ family egress _ resolved
    obtain ⟨stored, -⟩ := InterfaceTable.resolve?_eq_some_iff.1 resolved
    exact ⟨egress, InterfaceTable.resolve?_eq_some_iff.2 ⟨stored, rfl⟩, rfl⟩
  exact fun r hr => (all r hr).of_frame (frame_step e event)

theorem Reachable.resolves (h : e.Reachable) : e.routes.All (Route.Resolves e.interfaces) := by
  refine h.induct (P := fun e => e.routes.All (Route.Resolves e.interfaces)) (fun config e start => ?_)
    fun e event resolves => step_resolves resolves event
  obtain ⟨_, -, rfl⟩ := ofConfig_eq_ok start
  exact RouteTable.all_empty

/-! ## Main result -/

/-- A registration is stored behind all others, under the number behind the last. -/
theorem entries_of_admits {client : ClientId} {record : Wire.Route} (h : e.Admits event client record) :
    ∃ family egress, record.family = some family ∧
      (e.step event).1.routes.routes.entries =
        e.routes.routes.entries ++ [(e.routes.routes.next, .registered record family egress (some client))] := by
  obtain ⟨m, now, hm, carries, ok⟩ := h
  have running := running_of_ok ok
  rw [step_of_message hm]
  rw [dispatch_of_carries running carries] at ok ⊢
  obtain ⟨e', stored, settled⟩ := settled_status_ok (addRoute_ne_ok e record client) ok
  obtain ⟨family, egress, t, hf, -, added, rfl⟩ := addRoute_eq_ok stored
  obtain ⟨-, rfl⟩ := RouteTable.add_eq_ok_iff.1 added
  simp only [perform, handleRoute, settled]
  exact ⟨family, egress, hf, rfl⟩

/-- **The routes that are stored.** Whatever happened to the engine, the index of ids is
exact, and a look-up, the ids listed, those of a family and a listing that nothing comes
between agree with it. What is stored are the registrations that were answered with
`Status.ok` and not taken away since, in their order and under their numbers; and after any
part of the history, what the rest of it leaves of what was stored then, and behind it what
it adds. A registration goes behind all others, under a number above all that were in use at
any time, and a number that is gone is not used again. The interface that a route names is
there, under the id that the route has. -/
theorem registrations_survive {config : Config} {start : Engine} (fresh : ofConfig config = .ok start)
    (history : List Event) :
    let e := start.run history
    (e.routes.Coherent ∧
      ∀ first rest, e.running = true → first.asks? = some (.routes, .query) →
        (∀ event ∈ rest, event.asks? = some (.routes, .queryCont)) → rest.length = e.routes.size →
        e.answers (first :: rest) =
          inTurn Command.route.code (fun action r => r.toWire.encode action) .query e.routes.routes.values) ∧
      e.routes.admissions.entries = RouteChange.survivors 0 (start.routeChanges history) ∧
      (∀ front back, history = front ++ back →
        (start.run front).routes.Changed ((start.run front).routeChanges back) e.routes ∧
          ∀ seq ≤ (start.run front).routes.routes.last, seq ∉ (start.run front).routes.routes.numbers →
            seq ∉ e.routes.routes.numbers) ∧
      (∀ event client record, e.Admits event client record →
        (∃ family egress, record.family = some family ∧
          (e.step event).1.routes.routes.entries =
            e.routes.routes.entries ++
              [(e.routes.routes.next, .registered record family egress (some client))]) ∧
          ∀ front back, history = front ++ back →
            ∀ seq ∈ (start.run front).routes.routes.numbers, seq < e.routes.routes.next) ∧
      ∀ r ∈ e.routes.routes.values, ∃ i, e.interfaces.resolve? r.egress = some i ∧ i.id = r.egressId := by
  intro e
  have reachable : e.Reachable := (Reachable.start fresh).run history
  refine ⟨⟨reachable.sound.ids.coherent, fun first rest running asks goesOn enough => ?_⟩, ?_, ?_, ?_,
    reachable.resolves⟩
  · have table (action : Action) : e.records .routes action = e.routes.routes.map (·.toWire.encode action) := rfl
    have whole : (e.cursor .routes).ahead (Action.query == .query) e.routes.routes.table =
        e.routes.routes.entries := rfl
    calc e.answers (first :: rest) = (e.listing .routes (e.cursor .routes) e.metrics).answers (first :: rest) := by
          rw [listing_self]
      _ = _ := answers_of_ahead running table whole asks goesOn enough
  · have changed := (run_changed (.start fresh) history).entries
    obtain ⟨_, -, rfl⟩ := ofConfig_eq_ok fresh
    exact changed
  · rintro front back rfl
    have there : (start.run front).Reachable := (Reachable.start fresh).run front
    have changed := run_changed there back
    have grows := run_routes_grow (start.run front) back
    rw [← run_append] at changed grows
    exact ⟨changed, fun seq issued gone again => gone (grows.old seq again issued)⟩
  · intro event client record admits
    refine ⟨entries_of_admits admits, ?_⟩
    rintro front back rfl seq used
    have grows := run_routes_grow (start.run front) back
    rw [← run_append] at grows
    obtain ⟨_, stored⟩ := Sequenced.mem_numbers_iff.1 used
    exact Nat.lt_succ_of_le (Nat.le_trans (Sequenced.le_last stored) grows.last_le)

namespace Small

/-- An id is taken away and registered again, behind others; registering one that is taken
comes to nothing. -/
def renewing : List Event :=
  [send .route .register (.route (route 7)), send .route .register (.route (route 8)),
    send .route .register (.route route6), send .route .deregister (.route (route 7)),
    send .route .register (.route (route 7)), send .route .register (.route (route 8))]

/-- A reset of a family, and a registration of an id that it took away. -/
def restarting : List Event := [reset, send .route .register (.route (route 8))]

end Small

/-- What is registered again goes last, also after a reset. -/
theorem registrations_survive_small :
    let start := Small.start
    let e := start.run Small.renewing
    ofConfig Small.config = .ok start ∧
      e.routes.Coherent ∧ e.routes.ids none = [8, 9, 7] ∧ e.routes.routes.numbers = [2, 3, 4] ∧
      e.routes.admissions.entries = RouteChange.survivors 0 (start.routeChanges Small.renewing) ∧
      ((e.run Small.restarting).routes.admissions.entries =
        RouteChange.survivors 0 (start.routeChanges (Small.renewing ++ Small.restarting))) ∧
      (e.run Small.restarting).routes.ids none = [9, 8] ∧
      (e.run Small.restarting).routes.routes.numbers = [3, 5] ∧
      ∀ r ∈ e.routes.routes.values, ∃ i, e.interfaces.resolve? r.egress = some i ∧ i.id = r.egressId := by
  dsimp only
  obtain ⟨⟨coherent, -⟩, stored, -, -, resolves⟩ :=
    @registrations_survive Small.config Small.start rfl Small.renewing
  obtain ⟨-, later, -⟩ :=
    @registrations_survive Small.config Small.start rfl (Small.renewing ++ Small.restarting)
  rw [run_append] at later
  exact ⟨rfl, coherent, by decide +kernel, by decide +kernel, stored, later, by decide +kernel,
    by decide +kernel, resolves⟩

end Engine

end ControlPlane
