/-
Which connection a record leads to.

A record leads to a connection by its protocol and by the addresses and ports of its
orig tuple, and by nothing else. Connections that do not forward the orig direction have
no flow in it, so several may have one orig key. Then the one that forwards it is taken,
and the oldest when none does (`Exact.find?_eq_some_iff`).
-/
import ControlPlane.Proofs.Tracking.FlowIndex

namespace ControlPlane.ConnectionTable

variable {t t' : ConnectionTable} {k : FlowKey} {seq n now : Nat} {entry other : Tracked} {protocol : UInt16}
  {orig : Wire.Tuple} {c : Wire.Connection}

/-- An orig key leads to the connection that forwards it, or to the oldest that has
it when none forwards it. -/
def Leads (t : ConnectionTable) (k : FlowKey) (seq : Nat) : Prop :=
  ∃ entry, t.get? seq = some entry ∧ entry.connection.key .orig = k ∧
    (entry.connection.forwards .orig = true ∨
      ∀ n other, t.get? n = some other → other.connection.key .orig = k →
        other.connection.forwards .orig = false ∧ seq ≤ n)

/-- The number of the oldest connection of some kind. -/
def oldest? (t : ConnectionTable) (p : Tracked → Bool) : Option Nat :=
  (t.connections.entries.find? fun e => p e.2).map (·.1)

theorem oldest?_eq_some_iff {p : Tracked → Bool} :
    t.oldest? p = some seq ↔
      ∃ entry, t.get? seq = some entry ∧ p entry = true ∧
        ∀ n other, t.get? n = some other → p other = true → seq ≤ n := by
  simp only [oldest?, Option.map_eq_some_iff, Prod.exists, exists_and_right, exists_eq_right]
  refine exists_congr fun entry => ?_
  refine SortedMap.find?_entries_eq_some_iff.trans ?_
  refine and_congr Sequenced.mem_entries_iff (and_congr_right fun _ => ?_)
  constructor
  · intro least n other stored kind
    exact least (n, other) (Sequenced.mem_entries_iff.2 stored) kind
  · rintro least ⟨n, other⟩ stored kind
    exact least n other (Sequenced.mem_entries_iff.1 stored) kind

theorem oldest?_eq_none_iff {p : Tracked → Bool} :
    t.oldest? p = none ↔ ∀ n other, t.get? n = some other → p other = false := by
  simp only [oldest?, Option.map_eq_none_iff, List.find?_eq_none, Bool.not_eq_true, Prod.forall]
  exact forall_congr' fun _ => forall_congr' fun _ => imp_congr_left Sequenced.mem_entries_iff

theorem Exact.find?_eq_some_iff (h : t.Exact) :
    t.find? protocol orig = some seq ↔ t.Leads (FlowKey.ofTuple protocol orig) seq := by
  simp only [find?]
  generalize FlowKey.ofTuple protocol orig = k
  split
  · next n flow =>
    obtain ⟨entry, stored, forwards, key⟩ := (h k n .orig).1 flow
    rw [Option.some.injEq]
    constructor
    · rintro rfl
      exact ⟨entry, stored, key, .inl forwards⟩
    · rintro ⟨other, stored', key', forwards' | oldest⟩
      · exact (h.unique stored stored' forwards forwards' (key.trans key'.symm)).1
      · have silent := (oldest n entry stored key).1
        rw [forwards] at silent
        cases silent
  · next unforwarded =>
    -- The index has no flow of the key in the orig direction, so none forwards it.
    have silent : ∀ n other, t.get? n = some other → other.connection.key .orig = k →
        other.connection.forwards .orig = false := by
      intro n other stored key
      rw [Bool.eq_false_iff]
      intro forwards
      exact unforwarded n ((h k n .orig).2 ⟨other, stored, forwards, key⟩)
    show t.oldest? (fun entry => entry.connection.key .orig == k) = some seq ↔ _
    simp only [oldest?_eq_some_iff, beq_iff_eq]
    refine exists_congr fun entry => and_congr_right fun stored => and_congr_right fun key => ?_
    constructor
    · intro oldest
      exact .inr fun n other stored' key' => ⟨silent n other stored' key', oldest n other stored' key'⟩
    · rintro (forwards | oldest)
      · rw [silent seq entry stored key] at forwards
        cases forwards
      · exact fun n other stored' key' => (oldest n other stored' key').2

theorem leads_iff_of_stored (stored : t.get? seq = some entry) :
    t.Leads (entry.connection.key .orig) seq ↔
      entry.connection.forwards .orig = true ∨
        ∀ n other, t.get? n = some other → other.connection.key .orig = entry.connection.key .orig →
          other.connection.forwards .orig = false ∧ seq ≤ n := by
  constructor
  · rintro ⟨entry', stored', -, first⟩
    cases stored.symm.trans stored'
    exact first
  · intro first
    exact ⟨entry, stored, rfl, first⟩

/-- A record of a stored connection leads somewhere. -/
theorem find?_of_stored (stored : t.get? seq = some entry)
    (key : entry.connection.key .orig = FlowKey.ofTuple protocol orig) : ∃ found, t.find? protocol orig = some found := by
  simp only [find?]
  split
  · next n _ => exact ⟨n, rfl⟩
  · have some : (t.connections.entries.find? fun e =>
        e.2.connection.key .orig == FlowKey.ofTuple protocol orig).isSome = true := by
      rw [List.find?_isSome]
      exact ⟨(seq, entry), Sequenced.mem_entries_iff.2 stored, by simpa using key⟩
    obtain ⟨found, h⟩ := Option.isSome_iff_exists.1 some
    exact ⟨found.1, by rw [h, Option.map_some]⟩

/-- Just after a record was registered it leads to what was registered if it forwards
the orig direction, or if nothing else has its orig key. -/
theorem find?_of_add (h : t.Exact) (added : t.add c now = .ok (seq, t')) :
    t'.find? c.protocol c.orig = some seq ↔
      c.forwards .orig = true ∨ ∀ n other, t.get? n = some other → other.connection.key .orig ≠ c.key .orig := by
  have stored : t'.get? seq = some ⟨c, now, now⟩ := by rw [get?_add added, if_pos rfl]
  obtain ⟨-, -, -, number, -⟩ := add_eq_ok_iff.1 added
  have older {n : Nat} {other : Tracked} (before : t.get? n = some other) : n < seq :=
    number ▸ Nat.lt_succ_of_le (Sequenced.le_last before)
  have kept {n : Nat} {other : Tracked} (before : t.get? n = some other) : t'.get? n = some other := by
    rw [get?_add added, if_neg (Nat.ne_of_lt (older before)), before]
  rw [(h.add added).find?_eq_some_iff]
  constructor
  · rintro ⟨entry, there, -, forwards | oldest⟩
    · rw [stored] at there
      cases there
      exact .inl forwards
    · refine .inr fun n other before key => ?_
      exact Nat.not_le_of_lt (older before) (oldest n other (kept before) key).2
  · intro alone
    refine ⟨_, stored, rfl, ?_⟩
    by_cases forwards : c.forwards .orig = true
    · exact .inl forwards
    · have others := alone.resolve_left forwards
      refine .inr fun n other there key => ?_
      rw [get?_add added] at there
      split at there
      · next hn =>
        cases there
        exact ⟨Bool.eq_false_iff.2 forwards, Nat.le_of_eq hn.symm⟩
      · exact absurd key (others n other there)

/-- Taking away what was registered last gives back the former connections; taking
away another one does not. -/
theorem entries_remove_add (added : t.add c now = .ok (seq, t')) (stored : t'.get? n = some entry) :
    (t'.remove n).2.connections.entries = t.connections.entries ↔ n = seq := by
  obtain ⟨-, -, -, number, table⟩ := add_eq_ok_iff.1 added
  have fresh : t.get? seq = none := Sequenced.get?_of_last_lt (number ▸ Nat.lt_succ_self _)
  rw [connections_remove]
  constructor
  · intro same
    by_contra other
    have left : (seq, (⟨c, now, now⟩ : Tracked)) ∈ (t'.connections.erase n).entries := by
      rw [Sequenced.mem_entries_iff, Sequenced.get?_erase, if_neg other]
      show t'.get? seq = _
      rw [get?_add added, if_pos rfl]
    rw [same, Sequenced.mem_entries_iff] at left
    exact absurd (left.symm.trans fresh) (by simp)
  · rintro rfl
    subst table
    have gone := Sequenced.erase_of_get?_eq_none fresh
    rw [Sequenced.entries_erase, Sequenced.entries_push, List.filter_append, ← Sequenced.entries_erase, gone, number]
    simp

end ControlPlane.ConnectionTable
