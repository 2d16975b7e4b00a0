/-
The index of flows is exact: it leads from a key to a connection and a direction
just when that connection forwards that direction under that key.

Every operation on the table keeps it so (`Exact.add`, `Exact.remove`,
`Exact.modify`, `Exact.clear`). As the index gives one answer for a key, it follows
that no two forwarded directions have one key, that looking through all
connections finds what the index finds (`Exact.lookup?_eq_scan?`), and that the
index is as large as the connections make it (`Exact.flowCount_eq`).
-/
import ControlPlane.Proofs.Tracking.Table
import Mathlib.Algebra.GroupWithZero.Nat
import Mathlib.Data.List.Nodup
import Mathlib.Data.List.Perm.Lattice

namespace ControlPlane.ConnectionTable

/-- The index leads from a key to the forwarded direction that has it, and
nowhere from a key that none has. -/
def Exact (t : ConnectionTable) : Prop :=
  ∀ k seq d, t.flows.get? k = some (seq, d) ↔
    ∃ entry, t.get? seq = some entry ∧ entry.connection.forwards d = true ∧ entry.connection.key d = k

variable {t t' : ConnectionTable} {c : Wire.Connection} {k : FlowKey} {seq now : Nat} {d : Direction}

/-! ## Linking and unlinking -/

theorem key_ne_of_collides (h : collides c = false) (ho : c.forwards .orig = true)
    (hr : c.forwards .reply = true) : c.key .orig ≠ c.key .reply := by
  intro he
  cases hd : c.directions <;>
    simp [collides, he, hd, Wire.Connection.forwards, Wire.Directions.hasOrig,
      Wire.Directions.hasReply] at h ho hr

/-- The keys of a connection's forwarded directions lead to it, all others where
they led before. -/
theorem get?_link (h : collides c = false) (flows : Index FlowKey (Nat × Direction)) (n : Nat) :
    (link flows seq c).get? k = some (n, d) ↔
      (n = seq ∧ c.forwards d = true ∧ c.key d = k) ∨
        ((∀ d', c.forwards d' = true → c.key d' ≠ k) ∧ flows.get? k = some (n, d)) := by
  have hne := key_ne_of_collides h
  rw [Direction.forall_iff]
  -- Which directions are forwarded decides how many insertions there are.
  cases ho : c.forwards .orig <;> cases hr : c.forwards .reply <;>
    simp only [link, Wire.Connection.forwarded, List.filter_cons, List.filter_nil, ho, hr, if_true,
      if_false, Bool.false_eq_true, List.foldl_cons, List.foldl_nil, Index.get?_insert]
  · cases d <;> simp [ho, hr]
  · by_cases hk : c.key .reply = k <;> cases d <;> simp [ho, hr, hk, eq_comm]
  · by_cases hk : c.key .orig = k <;> cases d <;> simp [ho, hr, hk, eq_comm]
  · have ne := hne ho hr
    by_cases hk : c.key .reply = k
    · have : c.key .orig ≠ k := hk ▸ ne
      cases d <;> simp [ho, hr, hk, this, eq_comm]
    · by_cases hk' : c.key .orig = k <;> cases d <;> simp [ho, hr, hk, hk', eq_comm]

/-- The keys of a connection's forwarded directions lead nowhere if they led to
it; all others lead where they led before. -/
theorem get?_unlink (flows : Index FlowKey (Nat × Direction)) (n : Nat) :
    (unlink flows seq c).get? k = some (n, d) ↔
      flows.get? k = some (n, d) ∧ ¬ (n = seq ∧ ∃ d', c.forwards d' = true ∧ c.key d' = k) := by
  have mem : (∃ d', c.forwards d' = true ∧ c.key d' = k) ↔ ∃ d' ∈ c.forwarded, c.key d' = k := by simp
  rw [mem, unlink]
  generalize c.forwarded = ds
  induction ds generalizing flows with
  | nil => simp
  | cons d' ds ih =>
    refine (ih _).trans ?_
    dsimp only
    by_cases hk : c.key d' = k
    · rw [hk]
      cases hf : flows.get? k with
      | none => simp [hf]
      | some o =>
        obtain ⟨owner, o⟩ := o
        by_cases ho : owner = seq
        · simp only [ho, if_true, Index.get?_erase, reduceCtorEq, false_and, Option.some.injEq,
            Prod.mk.injEq, List.mem_cons, exists_eq_or_imp, hk, true_or, and_true, false_iff, not_and,
            not_not, and_imp]
          exact fun h _ => h.symm
        · simp only [ho, if_false, hf, Option.some.injEq, Prod.mk.injEq]
          refine and_congr_right fun h => ?_
          simp [← h.1, ho]
    · have : ∀ x, (∃ d'' ∈ d' :: ds, c.key d'' = x) ↔ c.key d' = x ∨ ∃ d'' ∈ ds, c.key d'' = x := by simp
      rw [this, or_iff_right hk]
      split
      · split
        · rw [Index.get?_erase, if_neg hk]
        · rfl
      · rfl

/-! ## Every operation keeps the index exact -/

theorem exact_empty (f : Family) : (empty f).Exact := by
  intro k seq d
  simp [empty, get?]

theorem exact_clear (t : ConnectionTable) : t.clear.Exact := by
  intro k seq d
  simp [clear, get?]

theorem Exact.add (h : t.Exact) (ha : t.add c now = .ok (seq, t')) : t'.Exact := by
  intro k n d
  obtain ⟨-, hc, hfree, rfl, rfl⟩ := add_eq_ok_iff.1 ha
  have fresh : t.get? t.connections.next = none := Sequenced.get?_of_last_lt (Nat.lt_succ_self _)
  rw [get?_add ha]
  simp only [get?_link hc]
  by_cases hn : n = t.connections.next
  · subst hn
    have unowned : t.flows.get? k ≠ some (t.connections.next, d) := fun hk => by
      obtain ⟨_, he, -⟩ := (h k _ d).1 hk
      rw [fresh] at he
      cases he
    simp [unowned]
  · simp only [hn, false_and, false_or, if_false]
    rw [h]
    refine and_iff_right_of_imp ?_
    -- The new connection's keys were free, so this one is not among them.
    rintro hk d' hd' rfl
    have := hfree d' hd'
    rw [(h _ n d).2 hk] at this
    cases this

/-- A registered connection is linked, and all others as before. -/
theorem Exact.flows_add (h : t.Exact) (added : t.add c now = .ok (seq, t')) {n : Nat} :
    t'.flows.get? k = some (n, d) ↔
      t.flows.get? k = some (n, d) ∨ n = seq ∧ c.forwards d = true ∧ c.key d = k := by
  rw [h.add added k n d, h k n d, get?_add added]
  by_cases new : n = seq
  · obtain ⟨-, -, -, number, -⟩ := add_eq_ok_iff.1 added
    have fresh : t.get? n = none := Sequenced.get?_of_last_lt (by rw [new, number]; exact Nat.lt_succ_self _)
    simp [new, new ▸ fresh]
  · simp [new]

theorem Exact.remove (h : t.Exact) (seq : Nat) : (t.remove seq).2.Exact := by
  intro k n d
  rw [get?_remove]
  cases he : t.get? seq with
  | none =>
    have : (t.remove seq).2 = t := by simp [ConnectionTable.remove, he]
    rw [this, h]
    split
    · next hn => simp [← hn, he]
    · rfl
  | some entry =>
    have : (t.remove seq).2.flows = unlink t.flows seq entry.connection := by
      simp [ConnectionTable.remove, he]
    rw [this, get?_unlink, h]
    by_cases hn : seq = n
    · subst hn
      simp only [if_true, true_and, reduceCtorEq, false_and, exists_false, iff_false, not_and, not_not]
      rintro ⟨entry', he', hd, hk⟩
      cases he.symm.trans he'
      exact ⟨d, hd, hk⟩
    · simp [hn, Ne.symm hn]

theorem Exact.modify {f : Tracked → Tracked} (h : t.Exact)
    (hf : ∀ entry, (f entry).identity = entry.identity) (seq : Nat) : (t.modify seq f).Exact := by
  intro k n d
  rw [get?_modify]
  refine (h k n d).trans ?_
  split
  · cases t.get? n with
    | none => simp
    | some entry =>
      simp [Tracked.forwards_of_identity (hf entry), Tracked.key_of_identity (hf entry)]
  · rfl

/-! ## What an exact index says -/

/-- Two forwarded directions of one key are one direction of one connection. -/
theorem Exact.unique (h : t.Exact) {seq seq' : Nat} {entry entry' : Tracked} {d d' : Direction}
    (he : t.get? seq = some entry) (he' : t.get? seq' = some entry')
    (hd : entry.connection.forwards d = true) (hd' : entry'.connection.forwards d' = true)
    (hk : entry.connection.key d = entry'.connection.key d') : seq = seq' ∧ d = d' := by
  have := (h _ seq d).2 ⟨entry, he, hd, hk⟩
  rw [(h _ seq' d').2 ⟨entry', he', hd', rfl⟩] at this
  simpa [eq_comm] using this

/-- A stored connection forwards a direction under a key. -/
def Forwards (t : ConnectionTable) (k : FlowKey) : Prop :=
  ∃ entry ∈ t.connections.values, ∃ d, entry.connection.forwards d = true ∧ entry.connection.key d = k

instance (t : ConnectionTable) (k : FlowKey) : Decidable (t.Forwards k) :=
  inferInstanceAs (Decidable (∃ entry ∈ t.connections.values, ∃ d,
    entry.connection.forwards d = true ∧ entry.connection.key d = k))

/-- The connection and the direction of a packet, by looking through all
connections. -/
def scan? (t : ConnectionTable) (key : FlowKey) : Option (Direction × Tracked) :=
  t.connections.values.findSome? fun entry =>
    (entry.connection.forwarded.find? fun d => entry.connection.key d == key).map fun d => (d, entry)

theorem Exact.lookup?_eq_some_iff (h : t.Exact) {entry : Tracked} :
    t.lookup? k = some (d, entry) ↔
      entry ∈ t.connections.values ∧ entry.connection.forwards d = true ∧ entry.connection.key d = k := by
  rw [mem_values_iff, lookup?_eq_some]
  constructor
  · rintro ⟨seq, leads, stored⟩
    obtain ⟨entry', there, forwards, key⟩ := (h k seq d).1 leads
    cases stored.symm.trans there
    exact ⟨⟨seq, stored⟩, forwards, key⟩
  · rintro ⟨⟨seq, stored⟩, forwards, key⟩
    exact ⟨seq, (h k seq d).2 ⟨entry, stored, forwards, key⟩, stored⟩

theorem Exact.contains_iff (h : t.Exact) : t.flows.contains k = true ↔ t.Forwards k := by
  rw [Index.contains, Option.isSome_iff_exists]
  constructor
  · rintro ⟨⟨seq, d⟩, leads⟩
    obtain ⟨entry, stored, forwards, key⟩ := (h k seq d).1 leads
    exact ⟨entry, mem_values_iff.2 ⟨seq, stored⟩, d, forwards, key⟩
  · rintro ⟨entry, hm, d, forwards, key⟩
    obtain ⟨seq, stored⟩ := mem_values_iff.1 hm
    exact ⟨(seq, d), (h k seq d).2 ⟨entry, stored, forwards, key⟩⟩

theorem Exact.lookup?_isSome_iff (h : t.Exact) : (t.lookup? k).isSome = true ↔ t.Forwards k := by
  rw [Option.isSome_iff_exists]
  constructor
  · rintro ⟨⟨d, entry⟩, looked⟩
    obtain ⟨stored, forwards, key⟩ := h.lookup?_eq_some_iff.1 looked
    exact ⟨entry, stored, d, forwards, key⟩
  · rintro ⟨entry, stored, d, forwards, key⟩
    exact ⟨(d, entry), h.lookup?_eq_some_iff.2 ⟨stored, forwards, key⟩⟩

/-- Looking through all connections finds what the index finds. -/
theorem Exact.lookup?_eq_scan? (h : t.Exact) (key : FlowKey) : t.lookup? key = t.scan? key := by
  cases hs : t.scan? key with
  | some found =>
    obtain ⟨d, entry⟩ := found
    obtain ⟨entry', hm, hf⟩ := List.exists_of_findSome?_eq_some hs
    simp only [Option.map_eq_some_iff, Prod.mk.injEq] at hf
    obtain ⟨_, hd, rfl, rfl⟩ := hf
    have hfwd := Wire.Connection.mem_forwarded.1 (List.mem_of_find?_eq_some hd)
    exact h.lookup?_eq_some_iff.2 ⟨hm, hfwd, by simpa using List.find?_some hd⟩
  | none =>
    cases hl : t.lookup? key with
    | none => rfl
    | some found =>
      obtain ⟨d, entry⟩ := found
      obtain ⟨hm, hd, hk⟩ := h.lookup?_eq_some_iff.1 hl
      have := List.findSome?_eq_none_iff.1 hs entry hm
      simp only [Option.map_eq_none_iff, List.find?_eq_none, beq_iff_eq] at this
      exact absurd hk (this d (Wire.Connection.mem_forwarded.2 hd))

/-- The flows of a table as its connections have them: a key for each forwarded
direction, and where it leads. -/
def flowsOf (t : ConnectionTable) : List (FlowKey × Nat × Direction) :=
  t.connections.entries.flatMap fun (seq, entry) =>
    entry.connection.forwarded.map fun d => (entry.connection.key d, seq, d)

theorem mem_flowsOf :
    (k, seq, d) ∈ t.flowsOf ↔
      ∃ entry, t.get? seq = some entry ∧ entry.connection.forwards d = true ∧ entry.connection.key d = k := by
  simp only [flowsOf, List.mem_flatMap, Prod.exists, List.mem_map, Wire.Connection.mem_forwarded,
    Prod.mk.injEq]
  constructor
  · rintro ⟨seq', entry, he, d', hd, hk, rfl, rfl⟩
    exact ⟨entry, Sequenced.mem_entries_iff.1 he, hd, hk⟩
  · rintro ⟨entry, he, hd, hk⟩
    exact ⟨seq, entry, Sequenced.mem_entries_iff.2 he, d, hd, hk, rfl, rfl⟩

theorem flowsOf_nodup (t : ConnectionTable) : t.flowsOf.Nodup := by
  refine List.nodup_flatMap.2 ⟨?_, t.connections.table.ascending.imp ?_⟩
  · rintro ⟨seq, entry⟩ -
    refine List.Nodup.map (fun d d' h => ?_) ?_
    · exact (Prod.mk.inj (Prod.mk.inj h).2).2
    · exact List.Nodup.filter _ (by decide)
  · rintro ⟨seq, entry⟩ ⟨seq', entry'⟩ lt x hx hx'
    simp only [List.mem_map] at hx hx'
    obtain ⟨d, -, rfl⟩ := hx
    obtain ⟨d', -, he⟩ := hx'
    have : seq' = seq := (Prod.mk.inj (Prod.mk.inj he).2).1
    exact Nat.lt_irrefl (rank seq) (this ▸ lt)

/-- The index holds the flows of the connections, in some order. -/
theorem Exact.perm (h : t.Exact) : t.flows.pairs.Perm t.flowsOf := by
  have nodup : t.flows.pairs.Nodup := t.flows.distinct.imp fun hne he => hne (congrArg Prod.fst he)
  refine (List.perm_ext_iff_of_nodup nodup t.flowsOf_nodup).2 ?_
  rintro ⟨k, seq, d⟩
  rw [mem_flowsOf, ← h k seq d, Index.get?_eq_some_iff]

/-- The index is as large as the forwarded directions of all connections
together. -/
theorem Exact.flowCount_eq (h : t.Exact) :
    t.flowCount = (t.connections.values.map fun entry => entry.connection.directions.count).sum := by
  rw [flowCount, Index.size, h.perm.length_eq, flowsOf, List.length_flatMap]
  simp only [Sequenced.values, SortedMap.values, List.map_map]
  refine congrArg List.sum (List.map_congr_left ?_)
  rintro ⟨seq, entry⟩ -
  simp [Wire.Connection.length_forwarded]

end ControlPlane.ConnectionTable
