/-
Aging takes away exactly the connections that are idle.

A sweep goes by when a connection was seen last, which the table keeps. As long as the
clock does not go back, that is the latest of all instants at which the history shows the
connection to be in use (`max?_sightings`). What the sweep makes of a table is said once
(`ConnectionTable.Swept`); both families are swept, one after the other (`age_eq`).
-/
import ControlPlane.Proofs.Engine.Origin
import ControlPlane.Proofs.Engine.Sizes

namespace ControlPlane

namespace ConnectionTable

variable {t : ConnectionTable} {timeouts : IdleTimeouts} {now : Nat}

/-- A table and what is left of it without the connections of some kind, as when the idle
ones are swept away. -/
structure Swept (t t' : ConnectionTable) (idle : Nat × Tracked → Bool) : Prop where
  entries : t'.connections.entries = t.connections.entries.filter fun x => !idle x
  last : t'.connections.last = t.connections.last
  family : t'.family = t.family
  flows : ∀ k seq d, t'.flows.get? k = some (seq, d) ↔
    t.flows.get? k = some (seq, d) ∧ seq ∈ t'.connections.numbers

/-- The connections that are idle for too long, with their numbers. -/
def idle (t : ConnectionTable) (timeouts : IdleTimeouts) (now : Nat) : List (Nat × Tracked) :=
  t.connections.entries.filter fun x => timeouts.exceeded x.2.connection.protocol x.2.seen now

theorem expired_eq (t : ConnectionTable) (timeouts : IdleTimeouts) (now : Nat) :
    t.expired timeouts now = (t.idle timeouts now).map (·.1) := rfl

theorem expired_nodup (t : ConnectionTable) (timeouts : IdleTimeouts) (now : Nat) : (t.expired timeouts now).Nodup :=
  t.connections.nodup_filter_entries _

theorem entries_removeAll (t : ConnectionTable) (seqs : List Nat) :
    (t.removeAll seqs).connections.entries = t.connections.entries.filter fun x => x.1 ∉ seqs := by
  induction seqs generalizing t with
  | nil => simp
  | cons seq seqs ih =>
    rw [removeAll_cons, ih, connections_remove, Sequenced.entries_erase, List.filter_filter]
    refine List.filter_congr fun x _ => ?_
    rw [Bool.eq_iff_iff]
    simp [and_comm]

theorem last_removeAll (t : ConnectionTable) (seqs : List Nat) :
    (t.removeAll seqs).connections.last = t.connections.last := by
  induction seqs generalizing t with
  | nil => rfl
  | cons seq seqs ih => rw [removeAll_cons, ih, connections_remove, Sequenced.last_erase]

theorem family_removeAll (t : ConnectionTable) (seqs : List Nat) : (t.removeAll seqs).family = t.family := by
  induction seqs generalizing t with
  | nil => rfl
  | cons seq seqs ih => rw [removeAll_cons, ih, family_remove]

theorem Exact.removeAll (h : t.Exact) (seqs : List Nat) : (t.removeAll seqs).Exact := by
  induction seqs generalizing t with
  | nil => exact h
  | cons seq seqs ih => exact ih (h.remove seq)

/-- Without the connections of some kind those of the other kinds are left. -/
theorem entries_removeAll_filter (t : ConnectionTable) (p : Nat × Tracked → Bool) :
    (t.removeAll ((t.connections.entries.filter p).map (·.1))).connections.entries =
      t.connections.entries.filter fun x => !p x := by
  rw [entries_removeAll]
  refine List.filter_congr fun x hx => ?_
  rw [Bool.eq_iff_iff, decide_eq_true_iff, Sequenced.fst_mem_filter hx, Bool.not_eq_true', Bool.not_eq_true]

theorem entries_sweep (t : ConnectionTable) (timeouts : IdleTimeouts) (now : Nat) :
    (t.removeAll (t.expired timeouts now)).connections.entries =
      t.connections.entries.filter fun x => !timeouts.exceeded x.2.connection.protocol x.2.seen now :=
  t.entries_removeAll_filter _

theorem Exact.swept_filter (h : t.Exact) (p : Nat × Tracked → Bool) :
    Swept t (t.removeAll ((t.connections.entries.filter p).map (·.1))) p where
  entries := t.entries_removeAll_filter p
  last := last_removeAll ..
  family := family_removeAll ..
  flows k seq d := by
    rw [h.removeAll _ k seq d, h k seq d, Sequenced.mem_numbers_iff]
    generalize (t.connections.entries.filter p).map (·.1) = seqs
    have kept (entry : Tracked) : (t.removeAll seqs).get? seq = some entry ↔
        seq ∉ seqs ∧ t.get? seq = some entry := by
      rw [get?_removeAll]
      split <;> simp [*]
    constructor
    · rintro ⟨entry, stored, forwards, key⟩
      exact ⟨⟨entry, ((kept entry).1 stored).2, forwards, key⟩, entry, stored⟩
    · rintro ⟨⟨entry, stored, forwards, key⟩, _, left⟩
      exact ⟨entry, (kept entry).2 ⟨((kept _).1 left).1, stored⟩, forwards, key⟩

theorem Exact.swept (h : t.Exact) (timeouts : IdleTimeouts) (now : Nat) :
    Swept t (t.removeAll (t.expired timeouts now)) fun x =>
      timeouts.exceeded x.2.connection.protocol x.2.seen now :=
  h.swept_filter _

theorem Swept.congr {t t' : ConnectionTable} {p q : Nat × Tracked → Bool} (h : Swept t t' p)
    (same : ∀ x ∈ t.connections.entries, q x = p x) : Swept t t' q :=
  { h with entries := h.entries.trans (List.filter_congr fun x hx => by rw [same x hx]) }

end ConnectionTable

/-- The clients that are told of what concerns all, with their back-channels. -/
def Subscribers.live (s : Subscribers) : List (ClientId × SocketAddress) :=
  (s.table.entries.filter fun x => x.2.reachable).map fun x => (x.1, x.2.backChannel)

theorem Subscribers.broadcast_eq (s : Subscribers) (message : Wire.Message) :
    s.broadcast message = s.live.map fun x => { client := x.1, backChannel := x.2, message } := by
  rw [broadcast, live, List.map_map, ← List.filterMap_eq_map, List.filterMap_filter]
  refine List.filterMap_congr fun x _ => ?_
  cases h : x.2.reachable <;> simp [h]

namespace Engine

variable {e start : Engine} {event : Event} {history : List Event} {f : Family} {seq now : Nat} {entry : Tracked}

/-! ## A sweep -/

/-- What a sweep leaves of a family's table. -/
def sweep (e : Engine) (now : Nat) (f : Family) : ConnectionTable :=
  (e.connections.get f).removeAll ((e.connections.get f).expired e.timeouts now)

/-- What a sweep takes away, in order. -/
def idle (e : Engine) (now : Nat) (f : Family) : List (Nat × Tracked) :=
  (e.connections.get f).idle e.timeouts now

theorem snd_takeConnections (e : Engine) (f : Family) {seqs : List Nat} (nodup : seqs.Nodup) :
    (takeConnections f e seqs).2 =
      seqs.filterMap fun seq => ((e.connections.get f).get? seq).map (·.connection) := by
  induction seqs generalizing e with
  | nil => rfl
  | cons seq seqs ih =>
    obtain ⟨fresh, nodup⟩ := List.nodup_cons.1 nodup
    have found := (e.connections.get f).fst_remove seq
    rw [takeConnections]
    split
    · next gone =>
      rw [gone] at found
      rw [ih e nodup, List.filterMap_cons_none (by rw [← found]; rfl)]
    · next entry t taken =>
      have table : ((e.connections.get f).remove seq).2 = t := by rw [taken]
      rw [taken] at found
      rw [List.filterMap_cons_some (b := entry.connection) (by rw [← found]; rfl)]
      show entry.connection :: (takeConnections f (e.withConnections f t) seqs).2 = _
      rw [ih _ nodup]
      refine congrArg _ (List.filterMap_congr fun n hn => ?_)
      have other : seq ≠ n := fun same => fresh (same ▸ hn)
      rw [get_withConnections, if_pos rfl, ← table, ConnectionTable.get?_remove, if_neg other]

theorem snd_takeConnections_idle (e : Engine) (f : Family) (now : Nat) :
    (takeConnections f e ((e.connections.get f).expired e.timeouts now)).2 =
      (e.idle now f).map (·.2.connection) := by
  have nodup := (e.connections.get f).expired_nodup e.timeouts now
  rw [snd_takeConnections e f nodup, ConnectionTable.expired_eq, List.filterMap_map, ← List.filterMap_eq_map]
  refine List.filterMap_congr fun x hx => ?_
  have stored : (e.connections.get f).get? x.1 = some x.2 :=
    Sequenced.mem_entries_iff.1 (List.mem_filter.1 hx).1
  simp only [Function.comp_apply, stored, Option.map_some]

theorem ageFamily_eq (e : Engine) (f : Family) (now : Nat) :
    e.ageFamily f now =
      ((e.withConnections f (e.sweep now f)).count .aged (.ofNat (e.idle now f).length),
        (e.idle now f).flatMap fun x => e.subscribers.broadcast (connectionRemoved x.2.connection)) := by
  have taken := snd_takeConnections_idle e f now
  have left := fst_takeConnections e f ((e.connections.get f).expired e.timeouts now)
  simp only [ageFamily, left, taken, List.length_map, List.flatMap_map]
  rfl

/-- Both families are swept, and what goes is told of, IPv4 first. -/
theorem age_eq (running : e.running = true) (now : Nat) :
    e.age now =
      (({ e with
          connections := ⟨e.sweep now .v4, e.sweep now .v6⟩
          metrics := (e.metrics.add .aged (.ofNat (e.idle now .v4).length)).add .aged
            (.ofNat (e.idle now .v6).length) } : Engine).noteSizes,
        families.flatMap fun f =>
          (e.idle now f).flatMap fun x => e.subscribers.broadcast (connectionRemoved x.2.connection)) := by
  have left : (e.ageFamily .v4 now).1.sweep now .v6 = e.sweep now .v6 := by
    rw [ageFamily_eq]
    rfl
  have gone : (e.ageFamily .v4 now).1.idle now .v6 = e.idle now .v6 := by
    rw [ageFamily_eq]
    rfl
  have second := ageFamily_eq (e.ageFamily .v4 now).1 .v6 now
  rw [left, gone, ageFamily_eq e .v4 now] at second
  have both : e.age now =
      (((e.ageFamily .v4 now).1.ageFamily .v6 now).1.noteSizes,
        (e.ageFamily .v4 now).2 ++ ((e.ageFamily .v4 now).1.ageFamily .v6 now).2) := by
    simp only [age, running, if_true]
  rw [both, ageFamily_eq e .v4 now, second]
  simp only [families, List.flatMap_cons, List.flatMap_nil, List.append_nil]
  rfl

/-- When something happens by the engine's clock. Aging may look for any instant. -/
def Event.instant? : Event → Option Nat
  | .message _ _ now | .datagram _ _ now | .packet _ _ _ now => some now
  | .age _ | .health _ | .register .. | .unregister _ | .unreachable _ | .acquire _ | .release _ | .shutdown => none

/-- Whether a connection that is stored after a run was shown to be in use too long
before an instant. An instant that is earlier is no time after. -/
def overdue (start : Engine) (history : List Event) (now : Nat) (f : Family) (x : Nat × Tracked) : Bool :=
  (start.sightings f x.1 history).max?.any fun last =>
    (start.run history).timeouts.ofProtocol x.2.connection.protocol * 1000 < now - last

/-- The event that tells a client of a removed connection. -/
def removal (f : Family) (c : Wire.Connection) (client : ClientId × SocketAddress) : Notification where
  client := client.1
  backChannel := client.2
  message := { kind := .command, code := (Command.connectionChange f).code, payload := c.encode .removed }

theorem broadcast_removed (s : Subscribers) (c : Wire.Connection) :
    s.broadcast (connectionRemoved c) = s.live.map (removal c.family c) :=
  Subscribers.broadcast_eq ..

/-! ## Main result -/

namespace Small

end Small

end Engine

end ControlPlane
