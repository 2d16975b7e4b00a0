/-
What the operations of an engine do to its tables, said once.

Whatever an operation does to routes, connections and interfaces is a run of single
edits (`Edit`), each with what was checked before it. Edits leave everything beside
the tables alone (`Edits.same`).
-/
import Mathlib.Logic.Relation
import ControlPlane.Engine.Dispatch
import ControlPlane.Proofs.Engine.Message
import ControlPlane.Proofs.Interfaces.Table
import ControlPlane.Proofs.Routing.IdIndex
import ControlPlane.Proofs.Tracking.Table

namespace ControlPlane

namespace PerFamily

variable {α : Type}

theorem get_set (p : PerFamily α) (f g : Family) (a : α) : (p.set f a).get g = if g = f then a else p.get g := by
  split
  · next h => rw [h, get_set_self]
  · next h => exact get_set_of_ne p h a

@[simp] theorem set_set (p : PerFamily α) (f : Family) (a b : α) : (p.set f a).set f b = p.set f b := by
  cases f <;> rfl

end PerFamily

namespace ConnectionTable

/-- The table without the connections of some numbers. -/
def removeAll (t : ConnectionTable) (seqs : List Nat) : ConnectionTable :=
  seqs.foldl (fun t seq => (t.remove seq).2) t

@[simp] theorem removeAll_nil (t : ConnectionTable) : t.removeAll [] = t := rfl

@[simp] theorem removeAll_cons (t : ConnectionTable) (seq : Nat) (seqs : List Nat) :
    t.removeAll (seq :: seqs) = (t.remove seq).2.removeAll seqs := rfl

theorem get?_removeAll (t : ConnectionTable) (seqs : List Nat) (seq : Nat) :
    (t.removeAll seqs).get? seq = if seq ∈ seqs then none else t.get? seq := by
  induction seqs generalizing t with
  | nil => rfl
  | cons n seqs ih =>
    rw [removeAll_cons, ih, get?_remove]
    by_cases hm : seq ∈ seqs
    · simp [hm]
    · by_cases hn : n = seq
      · simp [hn]
      · simp [hm, hn, Ne.symm hn]

/-- Without the connections that go through a route, none goes through it. -/
theorem usingRoute_removeAll (t : ConnectionTable) (id : UInt32) :
    (t.removeAll (t.usingRoute id)).usingRoute id = [] := by
  rw [List.eq_nil_iff_forall_not_mem]
  intro seq hs
  obtain ⟨entry, he, hu⟩ := mem_usingRoute.1 hs
  rw [get?_removeAll] at he
  split at he
  · cases he
  · next hn => exact hn (mem_usingRoute.2 ⟨entry, he, hu⟩)

end ConnectionTable

namespace Engine

open Relation (ReflTransGen)

/-- A single edit of the tables of an engine, or of what it counts. -/
inductive Edit : Engine → Engine → Prop
  /-- Something is counted. -/
  | note {e : Engine} (m : Metrics) : Edit e { e with metrics := m }
  /-- A route is registered through an interface that is there. -/
  | addRoute {e : Engine} {r : Route} {i : Interface} {t : RouteTable}
      (hi : e.interfaces.resolve? r.egress = some i) (hid : r.egressId = i.id)
      (ht : e.routes.add r = .ok t) : Edit e { e with routes := t }
  /-- A route goes away that no connection goes through. -/
  | removeRoute {e : Engine} {id : UInt32} (hu : ∀ f, (e.connections.get f).usingRoute id = []) :
      Edit e { e with routes := (e.routes.remove id).2 }
  /-- A packet went through a route. -/
  | hitRoute {e : Engine} (id : UInt32) :
      Edit e { e with routes := e.routes.modify id fun r => { r with hits := r.hits + 1 } }
  /-- A connection is registered whose forwarded directions have routes of its
  family. -/
  | addConnection {e : Engine} {f : Family} {c : Wire.Connection} {now seq : Nat} {t : ConnectionTable}
      (hs : ∀ d, c.forwards d = true → e.routeServes f (c.tuple d).routeId = true)
      (ht : (e.connections.get f).add c now = .ok (seq, t)) : Edit e (e.withConnections f t)
  /-- A connection goes away, if it is there. -/
  | removeConnection {e : Engine} (f : Family) (seq : Nat) :
      Edit e (e.withConnections f ((e.connections.get f).remove seq).2)
  /-- A connection changes, but not in what identifies it. -/
  | editConnection {e : Engine} (f : Family) (seq : Nat) {g : Tracked → Tracked}
      (hg : ∀ entry, (g entry).identity = entry.identity) :
      Edit e (e.withConnections f ((e.connections.get f).modify seq g))
  /-- All connections of a family go away. -/
  | clearConnections {e : Engine} (f : Family) :
      Edit e (e.withConnections f (e.connections.get f).clear)
  /-- The flags of an interface are set. -/
  | setFlags {e : Engine} {i : Interface} {t : InterfaceTable} (ht : e.interfaces.update i = .ok t) :
      Edit e { e with interfaces := t }

/-- One edit after the other. -/
abbrev Edits : Engine → Engine → Prop := ReflTransGen Edit

variable {e e' : Engine} {f : Family} {client : ClientId} {now : Nat}

@[simp] theorem get_withConnections (e : Engine) (f : Family) (t : ConnectionTable) (g : Family) :
    (e.withConnections f t).connections.get g = if g = f then t else e.connections.get g :=
  PerFamily.get_set ..

@[simp] theorem withConnections_self (e : Engine) (f : Family) :
    e.withConnections f (e.connections.get f) = e := by
  simp [withConnections]

@[simp] theorem withConnections_withConnections (e : Engine) (f : Family) (t t' : ConnectionTable) :
    (e.withConnections f t).withConnections f t' = e.withConnections f t' := by
  simp [withConnections]

theorem noteSizes_edit (e : Engine) : Edit e e.noteSizes := .note _

theorem count_edit (e : Engine) (c : Counter) (n : UInt64) : Edit e (e.count c n) := .note _

/-- Two engines are the same but for the tables and what is counted. -/
structure Same (e e' : Engine) : Prop where
  cursors : e'.cursors = e.cursors
  session : e'.session = e.session
  subscribers : e'.subscribers = e.subscribers
  timeouts : e'.timeouts = e.timeouts
  running : e'.running = e.running

theorem Edit.same (h : Edit e e') : Same e e' := by
  cases h <;> exact ⟨rfl, rfl, rfl, rfl, rfl⟩

/-- Edits leave everything beside the tables as it is. -/
theorem Edits.same (h : Edits e e') : Same e e' := by
  induction h with
  | refl => exact ⟨rfl, rfl, rfl, rfl, rfl⟩
  | tail _ he ih =>
    have last := he.same
    exact ⟨last.cursors.trans ih.cursors, last.session.trans ih.session,
      last.subscribers.trans ih.subscribers, last.timeouts.trans ih.timeouts,
      last.running.trans ih.running⟩

/-! ## Routes -/

/-- A registered route is the record's, through the interface that it names. -/
theorem addRoute_eq_ok {r : Wire.Route} {owner : Option ClientId} (h : e.addRoute r owner = .ok e') :
    ∃ family egress t, r.family = some family ∧ e.interfaces.resolve? r.interface = some egress ∧
      e.routes.add
        { id := r.id, family, sourceMac := r.sourceMac, destinationMac := r.destinationMac,
          egress := egress.name, egressId := egress.id, nextHop := r.nextHop, mtu := r.mtu, owner,
          hits := 0 } = .ok t ∧
      e' = { e with routes := t } := by
  unfold addRoute at h
  split at h
  · cases h
  · split at h
    · cases h
    · cases h
    · next family egress hf hi =>
      obtain ⟨t, ht, rfl⟩ := map_eq_ok_iff.1 h
      exact ⟨family, egress, t, hf, hi, ht, rfl⟩

theorem addRoute_ne_ok (e : Engine) (r : Wire.Route) (owner : Option ClientId) :
    e.addRoute r owner ≠ .error .ok := by
  unfold addRoute
  intro h
  split at h
  · cases h
  · split at h
    · cases h
    · cases h
    · exact RouteTable.add_ne_ok _ _ (map_eq_error_iff.1 h)

theorem addRoute_edit {r : Wire.Route} {owner : Option ClientId} (h : e.addRoute r owner = .ok e') :
    Edit e e' := by
  obtain ⟨family, egress, t, -, hi, ht, rfl⟩ := addRoute_eq_ok h
  have name : egress.name = r.interface := (InterfaceTable.resolve?_eq_some_iff.1 hi).2
  exact .addRoute (by simpa [name] using hi) rfl ht

/-- Connections that go away because their route does, and are counted. -/
theorem foldl_cascadeOne {seqs : List Nat} (e : Engine) (hn : seqs.Nodup)
    (hp : ∀ seq ∈ seqs, ∃ entry, (e.connections.get f).get? seq = some entry) :
    seqs.foldl (cascadeOne f) e =
      (e.withConnections f ((e.connections.get f).removeAll seqs)).count .cascaded (.ofNat seqs.length) := by
  induction seqs generalizing e with
  | nil => simp [withConnections, count, Metrics.add]
  | cons seq seqs ih =>
    obtain ⟨hs, hn⟩ := List.nodup_cons.1 hn
    obtain ⟨entry, he⟩ := hp seq List.mem_cons_self
    have one : cascadeOne f e seq =
        (e.withConnections f ((e.connections.get f).remove seq).2).count .cascaded 1 := by
      simp [cascadeOne, ConnectionTable.remove, he]
    have rest : ∀ n ∈ seqs, ∃ entry, ((cascadeOne f e seq).connections.get f).get? n = some entry := by
      intro n hm
      have ne : seq ≠ n := fun h => hs (h ▸ hm)
      obtain ⟨entry, he⟩ := hp n (List.mem_cons_of_mem _ hm)
      exact ⟨entry, by rw [one]; simp [count, ConnectionTable.get?_remove, ne, he]⟩
    rw [List.foldl_cons, ih _ hn rest, one]
    simp [withConnections, count, Metrics.add, UInt64.add_assoc, UInt64.add_comm]

/-- The connections of a family that go through a route go away, and are
counted. -/
theorem cascade_eq (e : Engine) (f : Family) (id : UInt32) :
    cascade id e f =
      (e.withConnections f
          ((e.connections.get f).removeAll ((e.connections.get f).usingRoute id))).count .cascaded
        (.ofNat ((e.connections.get f).usingRoute id).length) := by
  refine foldl_cascadeOne e ?_ fun seq hs => ?_
  · exact (ConnectionTable.usingRoute_nodup _ id)
  · obtain ⟨entry, he, -⟩ := ConnectionTable.mem_usingRoute.1 hs
    exact ⟨entry, he⟩

/-- Removing connections one by one. -/
theorem removeAll_edits (e : Engine) (f : Family) (seqs : List Nat) :
    Edits e (e.withConnections f ((e.connections.get f).removeAll seqs)) := by
  induction seqs generalizing e with
  | nil =>
    rw [ConnectionTable.removeAll_nil, withConnections_self]
  | cons seq seqs ih =>
    have := ih (e.withConnections f ((e.connections.get f).remove seq).2)
    rw [get_withConnections, if_pos rfl, withConnections_withConnections] at this
    exact .head (.removeConnection f seq) this

theorem cascade_edits (e : Engine) (f : Family) (id : UInt32) : Edits e (cascade id e f) := by
  rw [cascade_eq]
  exact (removeAll_edits e f _).tail (count_edit ..)

/-- After both families' connections through a route went away, none is left. -/
theorem usingRoute_cascades (e : Engine) (id : UInt32) (f : Family) :
    ((families.foldl (cascade id) e).connections.get f).usingRoute id = [] := by
  simp only [families, List.foldl_cons, List.foldl_nil]
  rw [cascade_eq _ .v6, cascade_eq _ .v4]
  cases f with
  | v4 => simp [count, ConnectionTable.usingRoute_removeAll]
  | v6 => simp [count, ConnectionTable.usingRoute_removeAll]

@[simp] theorem routes_cascades (e : Engine) (id : UInt32) :
    (families.foldl (cascade id) e).routes = e.routes := by
  simp [families, cascade_eq, count, withConnections]

/-- What becomes of a route that is dropped, and that it always is. -/
theorem dropRoute_of_get? {r : Route} {id : UInt32} (h : e.routes.get? id = some r) :
    e.dropRoute id =
      ({ families.foldl (cascade id) e with routes := (e.routes.remove id).2 }, .ok, e.tellOwner r) := by
  obtain ⟨seq, -, -, hr⟩ := RouteTable.remove_of_get? h
  simp [dropRoute, h, hr]

theorem dropRoute_of_get?_eq_none {id : UInt32} (h : e.routes.get? id = none) :
    e.dropRoute id = (e, .entryNotFound, []) := by
  simp [dropRoute, h]

theorem dropRoute_edits (e : Engine) (id : UInt32) : Edits e (e.dropRoute id).1 := by
  cases h : e.routes.get? id with
  | none =>
    rw [dropRoute_of_get?_eq_none h]
  | some r =>
    rw [dropRoute_of_get? h]
    have cascades : Edits e (families.foldl (cascade id) e) :=
      (cascade_edits e .v4 id).trans (cascade_edits _ .v6 id)
    have last := Edit.removeRoute (usingRoute_cascades e id)
    rw [routes_cascades] at last
    exact cascades.tail last

theorem dropRoutes_edits (e : Engine) (ids : List UInt32) : Edits e (e.dropRoutes ids).1 := by
  induction ids generalizing e with
  | nil => exact .refl
  | cons id ids ih => exact (dropRoute_edits e id).trans (ih _)

theorem reset_edits (e : Engine) (f : Family) : Edits e (e.reset f).1 :=
  .head (.clearConnections f) (dropRoutes_edits _ _)

/-! ## Connections -/

theorem addConnection_eq_ok {c : Wire.Connection} (h : e.addConnection c now = .ok e') :
    (∀ d, c.forwards d = true → e.routeServes c.family (c.tuple d).routeId = true) ∧
      ∃ seq t, (e.connections.get c.family).add c now = .ok (seq, t) ∧ e' = e.withConnections c.family t := by
  unfold addConnection at h
  split at h
  · next served =>
    obtain ⟨⟨seq, t⟩, ht, rfl⟩ := map_eq_ok_iff.1 h
    exact ⟨fun d hd => List.all_eq_true.1 served d (Wire.Connection.mem_forwarded.2 hd), seq, t, ht, rfl⟩
  · cases h

theorem addConnection_ne_ok (e : Engine) (c : Wire.Connection) (now : Nat) : e.addConnection c now ≠ .error .ok := by
  intro h
  unfold addConnection ConnectionTable.add at h
  split at h
  · have refusal := map_eq_error_iff.1 h
    split at refusal
    · cases refusal
    · split at refusal
      · cases refusal
      · split at refusal <;> cases refusal
  · cases h

theorem addConnection_edit {c : Wire.Connection} (h : e.addConnection c now = .ok e') : Edit e e' := by
  obtain ⟨served, seq, t, ht, rfl⟩ := addConnection_eq_ok h
  exact .addConnection served ht

/-- A connection changed through a record is changed in place. -/
theorem modifyFound_eq_ok {c : Wire.Connection} {g : Tracked → Tracked} (h : e.modifyFound c g = .ok e') :
    ∃ seq, (e.connections.get c.family).find? c.protocol c.orig = some seq ∧
      e' = e.withConnections c.family ((e.connections.get c.family).modify seq g) := by
  simp only [modifyFound] at h
  split at h
  · cases h
  · next seq hf =>
    split at h
    · cases h
    · cases h
      exact ⟨seq, hf, rfl⟩

theorem modifyFound_ne_ok (e : Engine) (c : Wire.Connection) (g : Tracked → Tracked) :
    e.modifyFound c g ≠ .error .ok := by
  intro h
  simp only [modifyFound] at h
  split at h
  · cases h
  · split at h <;> cases h

theorem modifyFound_edit {c : Wire.Connection} {g : Tracked → Tracked}
    (hg : ∀ entry, (g entry).identity = entry.identity) (h : e.modifyFound c g = .ok e') : Edit e e' := by
  obtain ⟨seq, -, rfl⟩ := modifyFound_eq_ok h
  exact .editConnection c.family seq hg

theorem updateConnection_edit {c : Wire.Connection} (h : e.updateConnection c = .ok e') :
    Edit e e' := by
  refine modifyFound_edit ?_ h
  exact fun _ => rfl

theorem keepAlive_edit {c : Wire.Connection} (h : e.keepAlive c now = .ok e') : Edit e e' := by
  refine modifyFound_edit ?_ h
  exact fun _ => rfl

theorem removeConnection_eq_ok {c : Wire.Connection} (h : e.removeConnection c = .ok e') :
    ∃ seq, (e.connections.get c.family).find? c.protocol c.orig = some seq ∧
      e' = e.withConnections c.family ((e.connections.get c.family).remove seq).2 := by
  simp only [removeConnection] at h
  split at h
  · cases h
  · next seq hf =>
    split at h
    · cases h
    · next hr =>
      cases h
      exact ⟨seq, hf, by rw [hr]⟩

theorem removeConnection_ne_ok (e : Engine) (c : Wire.Connection) : e.removeConnection c ≠ .error .ok := by
  intro h
  simp only [removeConnection] at h
  split at h
  · cases h
  · split at h <;> cases h

theorem removeConnection_edit {c : Wire.Connection} (h : e.removeConnection c = .ok e') : Edit e e' := by
  obtain ⟨seq, -, rfl⟩ := removeConnection_eq_ok h
  exact .removeConnection c.family seq

/-- Connections that are taken away leave the others. -/
theorem fst_takeConnections (e : Engine) (f : Family) (seqs : List Nat) :
    (takeConnections f e seqs).1 = e.withConnections f ((e.connections.get f).removeAll seqs) := by
  induction seqs generalizing e with
  | nil => simp [takeConnections, withConnections]
  | cons seq seqs ih =>
    rw [takeConnections]
    split
    · next hr =>
      have same : ((e.connections.get f).remove seq).2 = e.connections.get f := by
        have none := congrArg Prod.fst hr
        rw [ConnectionTable.fst_remove] at none
        simp [ConnectionTable.remove, none]
      rw [ih, ConnectionTable.removeAll_cons, same]
    · next hr =>
      simp only [ih, ConnectionTable.removeAll_cons, hr]
      simp [withConnections]

theorem ageFamily_edits (e : Engine) (f : Family) (now : Nat) : Edits e (e.ageFamily f now).1 := by
  have := fst_takeConnections e f ((e.connections.get f).expired e.timeouts now)
  have taken := removeAll_edits e f ((e.connections.get f).expired e.timeouts now)
  rw [← this] at taken
  exact taken.tail (count_edit ..)

/-- Both families are looked at, IPv4 first. -/
theorem fst_age (h : e.running = true) (now : Nat) :
    (e.age now).1 = ((e.ageFamily .v4 now).1.ageFamily .v6 now).1.noteSizes := by
  simp [age, h]

theorem age_of_not_running (h : e.running = false) (now : Nat) : e.age now = (e, []) := by
  simp [age, h]

theorem age_edits (e : Engine) (now : Nat) : Edits e (e.age now).1 := by
  cases h : e.running with
  | false => rw [age_of_not_running h]
  | true =>
    have aged := (ageFamily_edits e .v4 now).trans (ageFamily_edits _ .v6 now)
    rw [fst_age h]
    exact aged.tail (noteSizes_edit _)

/-! ## Packets -/

/-- A packet of no connection changes nothing. Any other is counted for the connection that
its key leads to, and for the route of that direction. -/
theorem account_cases (e : Engine) (f : Family) (key : FlowKey) (octets : UInt64) (now : Nat) :
    (e.connections.get f).lookup? key = none ∧ e.account f key octets now = (e, false) ∨
      ∃ seq d entry, (e.connections.get f).flows.get? key = some (seq, d) ∧
        (e.connections.get f).get? seq = some entry ∧
        e.account f key octets now =
          ({ e.withConnections f ((e.connections.get f).modify seq fun entry =>
              { entry with connection := entry.connection.hit d octets, seen := now }) with
              routes := e.routes.modify (entry.connection.tuple d).routeId fun r => { r with hits := r.hits + 1 } },
            true) := by
  cases looked : (e.connections.get f).lookup? key with
  | none => exact .inl ⟨rfl, by simp only [account, looked]⟩
  | some found =>
    obtain ⟨d, entry⟩ := found
    obtain ⟨seq, leads, stored⟩ := ConnectionTable.lookup?_eq_some.1 looked
    refine .inr ⟨seq, d, entry, leads, stored, ?_⟩
    simp only [account, looked, ConnectionTable.hit?, leads, stored, Option.map_some]

theorem account_edits (e : Engine) (f : Family) (key : FlowKey) (octets : UInt64) (now : Nat) :
    Edits e (e.account f key octets now).1 := by
  obtain ⟨-, missed⟩ | ⟨seq, d, _, -, -, counted⟩ := account_cases e f key octets now
  · rw [missed]
  · rw [counted]
    exact .tail (.single (.editConnection f seq fun entry => entry.identity_hit d octets now)) (.hitRoute _)

end Engine

end ControlPlane
