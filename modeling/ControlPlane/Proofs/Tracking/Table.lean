/-
What each operation on a table of connections does, connection by connection.

A tracked connection changes while it is tracked, but not in what identifies it
(`Tracked.identity`): its directions, tuples and keys stay.
-/
import ControlPlane.Proofs.Store.Sequenced
import ControlPlane.Tracking.Table

namespace ControlPlane

namespace Direction

variable {p : Direction → Prop}

theorem exists_iff : (∃ d, p d) ↔ p .orig ∨ p .reply := by
  constructor
  · rintro ⟨_ | _, h⟩
    · exact .inl h
    · exact .inr h
  · rintro (h | h)
    · exact ⟨_, h⟩
    · exact ⟨_, h⟩

theorem forall_iff : (∀ d, p d) ↔ p .orig ∧ p .reply := by
  constructor
  · intro h
    exact ⟨h _, h _⟩
  · rintro ⟨orig, reply⟩ (_ | _)
    · exact orig
    · exact reply

instance [DecidablePred p] : Decidable (∃ d, p d) := decidable_of_iff _ exists_iff.symm

instance [DecidablePred p] : Decidable (∀ d, p d) := decidable_of_iff _ forall_iff.symm

end Direction

namespace Tracked

/-- What of a connection stays as it was registered: all but the statistics,
whether the hop limit is decremented, and when it was last seen. -/
def identity (entry : Tracked) : Tracked :=
  { entry with
    seen := 0
    connection :=
      { entry.connection with ttlDecrement := false, origTraffic := .zero, replyTraffic := .zero } }

variable {a b : Tracked}

theorem forwards_of_identity (h : a.identity = b.identity) (d : Direction) :
    a.connection.forwards d = b.connection.forwards d :=
  congrArg (fun entry => entry.connection.forwards d) h

theorem tuple_of_identity (h : a.identity = b.identity) (d : Direction) :
    a.connection.tuple d = b.connection.tuple d :=
  congrArg (fun entry => entry.connection.tuple d) h

theorem key_of_identity (h : a.identity = b.identity) (d : Direction) :
    a.connection.key d = b.connection.key d :=
  congrArg (fun entry => entry.connection.key d) h

theorem identity_hit (entry : Tracked) (d : Direction) (octets : UInt64) (now : Nat) :
    { entry with connection := entry.connection.hit d octets, seen := now : Tracked }.identity =
      entry.identity := by
  cases d <;> rfl

end Tracked

namespace ConnectionTable

variable {t t' : ConnectionTable} {c : Wire.Connection} {now seq : Nat}

theorem mem_values_iff {entry : Tracked} :
    entry ∈ t.connections.values ↔ ∃ seq, t.get? seq = some entry :=
  Sequenced.mem_values_iff

/-! ## Registering -/

/-- A connection is registered just when it is of the table's family, its
directions have two keys, and no flow has a key of either; then it is the last. -/
theorem add_eq_ok_iff :
    t.add c now = .ok (seq, t') ↔
      c.family = t.family ∧ collides c = false ∧
        (∀ d, c.forwards d = true → t.flows.get? (c.key d) = none) ∧
        seq = t.connections.next ∧
        t' = { t with
          connections := t.connections.push { connection := c, created := now, seen := now }
          flows := link t.flows t.connections.next c } := by
  have free : (c.forwarded.any fun d => t.flows.contains (c.key d)) = false ↔
      ∀ d, c.forwards d = true → t.flows.get? (c.key d) = none := by
    simp [List.any_eq_false, Index.contains]
  rw [← free, add]
  split
  · next h => simp [h]
  · next hf =>
    split
    · next h => simp [h]
    · next hc =>
      split
      · next h => simp [h]
      · next ha =>
        simp only [Except.ok.injEq, Prod.mk.injEq, eq_comm (a := t.connections.next)]
        simp only [ne_eq, Decidable.not_not] at hf
        simp [hf, hc, ha, eq_comm]

theorem get?_add (h : t.add c now = .ok (seq, t')) (seq' : Nat) :
    t'.get? seq' =
      if seq' = seq then some { connection := c, created := now, seen := now } else t.get? seq' := by
  obtain ⟨-, -, -, rfl, rfl⟩ := add_eq_ok_iff.1 h
  exact Sequenced.get?_push ..

/-! ## Removing -/

@[simp] theorem fst_remove (t : ConnectionTable) (seq : Nat) : (t.remove seq).1 = t.get? seq := by
  unfold remove
  split <;> simp [*]

@[simp] theorem connections_remove (t : ConnectionTable) (seq : Nat) :
    (t.remove seq).2.connections = t.connections.erase seq := by
  unfold remove
  split
  · next h => exact (Sequenced.erase_of_get?_eq_none h).symm
  · rfl

@[simp] theorem family_remove (t : ConnectionTable) (seq : Nat) : (t.remove seq).2.family = t.family := by
  unfold remove
  split <;> rfl

theorem get?_remove (t : ConnectionTable) (seq seq' : Nat) :
    (t.remove seq).2.get? seq' = if seq = seq' then none else t.get? seq' := by
  rw [get?, connections_remove]
  exact Sequenced.get?_erase ..

/-! ## Changing in place -/

theorem get?_modify (t : ConnectionTable) (seq : Nat) (f : Tracked → Tracked) (seq' : Nat) :
    (t.modify seq f).get? seq' = if seq = seq' then (t.get? seq').map f else t.get? seq' :=
  Sequenced.get?_modify ..

/-- A table with a connection changed in place, but not in its identity, has
connections of the same identities under the same numbers. -/
theorem identity_modify {f : Tracked → Tracked} (hf : ∀ entry, (f entry).identity = entry.identity)
    (t : ConnectionTable) (seq seq' : Nat) :
    ((t.modify seq f).get? seq').map Tracked.identity = (t.get? seq').map Tracked.identity := by
  rw [get?_modify]
  split
  · cases t.get? seq' <;> simp [hf]
  · rfl

/-- A packet is counted by changing its connection in place. -/
theorem hit?_eq_some {key : FlowKey} {octets : UInt64} (h : t.hit? key octets now = some t') :
    ∃ seq d, t.flows.get? key = some (seq, d) ∧
      t' = t.modify seq fun entry =>
        { entry with connection := entry.connection.hit d octets, seen := now } := by
  unfold hit? at h
  split at h
  · cases h
  · next seq d hk =>
    obtain ⟨_, -, rfl⟩ := Option.map_eq_some_iff.1 h
    exact ⟨seq, d, hk, rfl⟩

theorem lookup?_eq_some {key : FlowKey} {d : Direction} {entry : Tracked} :
    t.lookup? key = some (d, entry) ↔ ∃ seq, t.flows.get? key = some (seq, d) ∧ t.get? seq = some entry := by
  unfold lookup?
  constructor
  · intro h
    split at h
    · cases h
    · next seq d' leads =>
      obtain ⟨entry', stored, same⟩ := Option.map_eq_some_iff.1 h
      cases same
      exact ⟨seq, leads, stored⟩
  · rintro ⟨seq, leads, stored⟩
    simp only [leads, stored, Option.map_some]

/-! ## Connections through a route -/

variable {id : UInt32}

theorem uses_iff : uses c id = true ↔ ∃ d, c.forwards d = true ∧ (c.tuple d).routeId = id := by
  simp [uses]

theorem mem_usingRoute :
    seq ∈ t.usingRoute id ↔ ∃ entry, t.get? seq = some entry ∧ uses entry.connection id = true := by
  simp only [usingRoute, List.mem_map, List.mem_filter, Prod.exists, exists_and_right, exists_eq_right]
  exact exists_congr fun _ => and_congr_left fun _ => Sequenced.mem_entries_iff

theorem usingRoute_nodup (t : ConnectionTable) (id : UInt32) : (t.usingRoute id).Nodup :=
  t.connections.nodup_filter_entries _

/-- No connection goes through a route just when no forwarded direction names it. -/
theorem usingRoute_eq_nil_iff :
    t.usingRoute id = [] ↔
      ∀ seq entry, t.get? seq = some entry →
        ∀ d, entry.connection.forwards d = true → (entry.connection.tuple d).routeId ≠ id := by
  rw [List.eq_nil_iff_forall_not_mem]
  simp only [mem_usingRoute, uses_iff, not_exists, not_and]

end ConnectionTable

end ControlPlane
