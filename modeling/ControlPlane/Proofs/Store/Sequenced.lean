/-
Looking into tables that are kept in order: what each operation on a sequenced
table does to its values, numbers and size, and which entry a listing comes to next.
`map` is such a table with something else in place of each entry, at the same number.

`Sequenced.Grows` relates a table to a later one: numbers are taken away, or given
out behind all former ones. Every operation does so, so a number that is gone stays
gone.
-/
import ControlPlane.Store.Sequenced
import Mathlib.Data.List.Nodup

namespace ControlPlane

namespace SortedMap

variable {κ α β : Type} [Ranked κ]

theorem mem_entries_iff {m : SortedMap κ α} {k : κ} {v : α} : (k, v) ∈ m.entries ↔ m.get? k = some v :=
  ⟨get?_of_mem, mem_of_get?⟩

theorem mem_keys_iff {m : SortedMap κ α} {k : κ} : k ∈ m.keys ↔ ∃ v, m.get? k = some v := by
  simp only [keys, List.mem_map, Prod.exists, exists_and_right, exists_eq_right]
  exact exists_congr fun _ => mem_entries_iff

/-- The first entry comes before all others. -/
theorem first?_eq_some {m : SortedMap κ α} {e : κ × α} (h : m.first? = some e) :
    e ∈ m.entries ∧ ∀ d ∈ m.entries, rank e.1 ≤ rank d.1 := by
  obtain ⟨es, asc⟩ := m
  cases es with
  | nil => cases h
  | cons e' es =>
    obtain rfl : e' = e := by simpa [first?] using h
    refine ⟨List.mem_cons_self, fun d hd => ?_⟩
    rcases List.mem_cons.1 hd with rfl | hd
    · exact Nat.le_refl _
    · exact Nat.le_of_lt ((List.pairwise_cons.1 asc).1 d hd)

/-- Looking for an entry from the front finds the one with the least key. -/
theorem find?_entries_eq_some_iff {m : SortedMap κ α} {p : κ × α → Bool} {e : κ × α} :
    m.entries.find? p = some e ↔
      e ∈ m.entries ∧ p e = true ∧ ∀ d ∈ m.entries, p d = true → rank e.1 ≤ rank d.1 := by
  have least : ∀ {e : κ × α}, m.entries.find? p = some e → ∀ d ∈ m.entries, p d = true → rank e.1 ≤ rank d.1 := by
    intro e h d hd hp
    obtain ⟨-, front, rest, split, hfront⟩ := List.find?_eq_some_iff_append.1 h
    have asc := m.ascending
    rw [split] at hd asc
    -- Nothing in front of the entry found is looked for.
    rcases List.mem_append.1 hd with hd | hd
    · have missed := hfront d hd
      rw [hp] at missed
      cases missed
    · rcases List.mem_cons.1 hd with rfl | hd
      · exact Nat.le_refl _
      · exact Nat.le_of_lt ((List.pairwise_cons.1 (List.pairwise_append.1 asc).2.1).1 d hd)
  constructor
  · intro h
    exact ⟨List.mem_of_find?_eq_some h, List.find?_some h, least h⟩
  · rintro ⟨he, hp, le⟩
    obtain ⟨d, hd⟩ := Option.isSome_iff_exists.1 (List.find?_isSome.2 ⟨e, he, hp⟩)
    have same : d.1 = e.1 :=
      rank_inj.1 (Nat.le_antisymm (least hd e he hp)
        (le d (List.mem_of_find?_eq_some hd) (List.find?_some hd)))
    have value : m.get? e.1 = some d.2 := get?_of_mem (same ▸ List.mem_of_find?_eq_some hd)
    rw [get?_of_mem he] at value
    rw [hd, Prod.ext same (Option.some.inj value).symm]

/-- The entry behind a key comes before all others behind it. -/
theorem after?_eq_some {m : SortedMap κ α} {k : κ} {e : κ × α} (h : m.after? k = some e) :
    e ∈ m.entries ∧ rank k < rank e.1 ∧ ∀ d ∈ m.entries, rank k < rank d.1 → rank e.1 ≤ rank d.1 := by
  simpa only [decide_eq_true_eq] using find?_entries_eq_some_iff.1 h

theorem after?_eq_none {m : SortedMap κ α} {k : κ} (h : m.after? k = none) :
    ∀ d ∈ m.entries, rank d.1 ≤ rank k := by
  intro d hd
  have := List.find?_eq_none.1 h d hd
  simpa using this

/-- Another value in place of each, at the same key. -/
def map (f : α → β) (m : SortedMap κ α) : SortedMap κ β :=
  ⟨m.entries.map fun e => (e.1, f e.2), m.ascending.map _ fun _ _ h => h⟩

@[simp] theorem keys_map (f : α → β) (m : SortedMap κ α) : (m.map f).keys = m.keys := by
  simp [keys, map]

theorem first?_map (f : α → β) (m : SortedMap κ α) :
    (m.map f).first? = m.first?.map fun e => (e.1, f e.2) :=
  List.head?_map ..

theorem after?_map (f : α → β) (m : SortedMap κ α) (k : κ) :
    (m.map f).after? k = (m.after? k).map fun e => (e.1, f e.2) :=
  List.find?_map ..

end SortedMap

namespace Sequenced

variable {α β : Type}

/-- Another entry in place of each, at the same number. -/
def map (f : α → β) (s : Sequenced α) : Sequenced β where
  table := s.table.map f
  last := s.last
  bounded := fun e he => by
    obtain ⟨d, hd, rfl⟩ := List.mem_map.1 he
    exact s.bounded d hd

@[simp] theorem table_map (f : α → β) (s : Sequenced α) : (s.map f).table = s.table.map f := rfl

@[simp] theorem last_map (f : α → β) (s : Sequenced α) : (s.map f).last = s.last := rfl

@[simp] theorem numbers_map (f : α → β) (s : Sequenced α) : (s.map f).numbers = s.numbers :=
  SortedMap.keys_map ..

theorem mem_values_iff {s : Sequenced α} {a : α} : a ∈ s.values ↔ ∃ seq, s.get? seq = some a := by
  simp only [values, SortedMap.values, List.mem_map, Prod.exists, exists_eq_right]
  exact exists_congr fun _ => mem_entries_iff

theorem mem_numbers_iff {s : Sequenced α} {seq : Nat} : seq ∈ s.numbers ↔ ∃ a, s.get? seq = some a :=
  SortedMap.mem_keys_iff

/-- An entry is told apart from those of another kind by its number. -/
theorem fst_mem_filter {s : Sequenced α} {p : Nat × α → Bool} {x : Nat × α} (hx : x ∈ s.entries) :
    x.1 ∈ (s.entries.filter p).map (·.1) ↔ p x = true := by
  rw [List.mem_map]
  constructor
  · rintro ⟨y, hy, number⟩
    obtain ⟨stored, kind⟩ := List.mem_filter.1 hy
    -- No other entry has the number.
    have same : some y.2 = some x.2 := (mem_entries_iff.1 stored).symm.trans (number ▸ mem_entries_iff.1 hx)
    rwa [Prod.ext number (Option.some.inj same)] at kind
  · intro kind
    exact ⟨x, List.mem_filter.2 ⟨hx, kind⟩, rfl⟩

theorem le_last {s : Sequenced α} {seq : Nat} {a : α} (h : s.get? seq = some a) : seq ≤ s.last :=
  s.bounded _ (mem_entries_iff.2 h)

@[simp] theorem values_push (s : Sequenced α) (a : α) : (s.push a).values = s.values ++ [a] := by
  simp [values, SortedMap.values, push, entries]

@[simp] theorem numbers_modify (s : Sequenced α) (seq : Nat) (f : α → α) :
    (s.modify seq f).numbers = s.numbers :=
  SortedMap.keys_modify ..

@[simp] theorem size_modify (s : Sequenced α) (seq : Nat) (f : α → α) : (s.modify seq f).size = s.size :=
  SortedMap.size_modify ..

/-- No two entries have one number. -/
theorem numbers_nodup (s : Sequenced α) : s.numbers.Nodup := by
  refine List.Pairwise.map _ (fun a b lt same => ?_) s.table.ascending
  exact Nat.lt_irrefl (rank b.1) (same ▸ lt)

theorem nodup_filter_entries (s : Sequenced α) (p : Nat × α → Bool) : ((s.entries.filter p).map (·.1)).Nodup :=
  s.numbers_nodup.sublist (List.filter_sublist.map _)

@[simp] theorem size_push (s : Sequenced α) (a : α) : (s.push a).size = s.size + 1 := by
  simp [size, SortedMap.size, push, entries]

/-- An entry that is stored is stored once. -/
theorem size_erase {s : Sequenced α} {seq : Nat} {a : α} (h : s.get? seq = some a) :
    (s.erase seq).size + 1 = s.size := by
  have once : s.numbers.count seq = 1 :=
    List.count_eq_one_of_mem s.numbers_nodup (mem_numbers_iff.2 ⟨a, h⟩)
  rw [List.count, numbers, SortedMap.keys, List.countP_map, List.countP_eq_length_filter] at once
  have split := s.entries.length_eq_length_filter_add (·.1 == seq)
  show (s.entries.filter (·.1 != seq)).length + 1 = s.entries.length
  rw [split, ← once, Nat.add_comm]
  rfl

/-- A table is its entries and the last number. -/
theorem ext_entries {s s' : Sequenced α} (h : s.entries = s'.entries) (hl : s.last = s'.last) : s = s' := by
  obtain ⟨⟨es, _⟩, last, _⟩ := s
  obtain ⟨⟨es', _⟩, last', _⟩ := s'
  obtain rfl : es = es' := h
  obtain rfl : last = last' := hl
  rfl

theorem erase_of_get?_eq_none {s : Sequenced α} {seq : Nat} (h : s.get? seq = none) : s.erase seq = s := by
  refine ext_entries ?_ rfl
  rw [entries_erase, List.filter_eq_self]
  rintro ⟨seq', a⟩ ha
  rw [bne_iff_ne]
  rintro rfl
  rw [mem_entries_iff.1 ha] at h
  cases h

/-- The entries with one of them changed, or taken away. -/
def amended (s : Sequenced α) (seq : Nat) (change : α → Option α) : List (Nat × α) :=
  s.entries.filterMap fun e => if e.1 = seq then (change e.2).map fun a => (e.1, a) else some e

theorem entries_erase_eq (s : Sequenced α) (seq : Nat) :
    (s.erase seq).entries = s.amended seq fun _ => none := by
  rw [entries_erase, amended, ← List.filterMap_eq_filter]
  refine List.filterMap_congr fun e _ => ?_
  by_cases h : e.1 = seq <;> simp [Option.guard, h]

theorem entries_modify_eq (s : Sequenced α) (seq : Nat) (f : α → α) :
    (s.modify seq f).entries = s.amended seq fun a => some (f a) := by
  show s.entries.map _ = _
  rw [amended, ← List.filterMap_eq_map]
  refine List.filterMap_congr fun e _ => ?_
  by_cases h : e.1 = seq <;> simp [rank, h]

/-! ## In order -/

theorem first?_eq_some {s : Sequenced α} {seq : Nat} {a : α} (h : s.table.first? = some (seq, a)) :
    s.get? seq = some a ∧ ∀ n ∈ s.numbers, seq ≤ n := by
  obtain ⟨mem, le⟩ := SortedMap.first?_eq_some h
  refine ⟨mem_entries_iff.1 mem, fun n hn => ?_⟩
  obtain ⟨b, hb⟩ := mem_numbers_iff.1 hn
  exact le (n, b) (mem_entries_iff.2 hb)

theorem after?_eq_some {s : Sequenced α} {k seq : Nat} {a : α} (h : s.table.after? k = some (seq, a)) :
    s.get? seq = some a ∧ k < seq ∧ ∀ n ∈ s.numbers, k < n → seq ≤ n := by
  obtain ⟨mem, lt, le⟩ := SortedMap.after?_eq_some h
  refine ⟨mem_entries_iff.1 mem, lt, fun n hn => ?_⟩
  obtain ⟨b, hb⟩ := mem_numbers_iff.1 hn
  exact le (n, b) (mem_entries_iff.2 hb)

theorem after?_eq_none {s : Sequenced α} {k : Nat} (h : s.table.after? k = none) :
    ∀ n ∈ s.numbers, n ≤ k := by
  intro n hn
  obtain ⟨b, hb⟩ := mem_numbers_iff.1 hn
  exact SortedMap.after?_eq_none h (n, b) (mem_entries_iff.2 hb)

/-! ## Numbers over time -/

/-- A table and a later one: the number given out last only grows, and of the
numbers that were given out before, none comes back. -/
structure Grows (s s' : Sequenced α) : Prop where
  last_le : s.last ≤ s'.last
  old : ∀ seq ∈ s'.numbers, seq ≤ s.last → seq ∈ s.numbers

theorem Grows.refl (s : Sequenced α) : s.Grows s := ⟨Nat.le_refl _, fun _ h _ => h⟩

theorem Grows.trans {s s' s'' : Sequenced α} (h : s.Grows s') (h' : s'.Grows s'') : s.Grows s'' where
  last_le := Nat.le_trans h.last_le h'.last_le
  old seq hs le := h.old seq (h'.old seq hs (Nat.le_trans le h.last_le)) le

theorem Grows.map {s s' : Sequenced α} (h : s.Grows s') (f : α → β) : (s.map f).Grows (s'.map f) where
  last_le := h.last_le
  old seq hs le := by
    rw [numbers_map] at hs ⊢
    exact h.old seq hs le

theorem Grows.of_map {s s' : Sequenced α} {f : α → β} (h : (s.map f).Grows (s'.map f)) : s.Grows s' where
  last_le := h.last_le
  old seq hs le := by
    have old := h.old seq (by rwa [numbers_map]) le
    rwa [numbers_map] at old

theorem grows_push (s : Sequenced α) (a : α) : s.Grows (s.push a) where
  last_le := Nat.le_succ _
  old seq h le := by
    obtain ⟨b, hb⟩ := mem_numbers_iff.1 h
    have ne : seq ≠ s.next := Nat.ne_of_lt (Nat.lt_succ_of_le le)
    rw [get?_push, if_neg ne] at hb
    exact mem_numbers_iff.2 ⟨b, hb⟩

theorem grows_erase (s : Sequenced α) (seq : Nat) : s.Grows (s.erase seq) where
  last_le := Nat.le_refl _
  old seq' h _ := by
    obtain ⟨b, hb⟩ := mem_numbers_iff.1 h
    rw [get?_erase] at hb
    split at hb
    · cases hb
    · exact mem_numbers_iff.2 ⟨b, hb⟩

theorem grows_modify (s : Sequenced α) (seq : Nat) (f : α → α) : s.Grows (s.modify seq f) where
  last_le := Nat.le_refl _
  old seq' h _ := by rwa [numbers_modify] at h

theorem grows_clear (s : Sequenced α) : s.Grows s.clear where
  last_le := Nat.le_refl _
  old _ h _ := by
    obtain ⟨_, hb⟩ := mem_numbers_iff.1 h
    cases hb

end Sequenced

end ControlPlane
