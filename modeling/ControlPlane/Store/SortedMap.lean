/-
Maps whose entries stand in the order of their keys.

A key's place in the order is a number of its own (`Ranked`). One lemma per
operation says what it does to a look-up: `get?_insert`, `get?_erase`,
`get?_modify`.
-/
namespace ControlPlane

/-- Keys that have a place of their own in an order. -/
class Ranked (κ : Type) where
  rank : κ → Nat
  rank_injective : ∀ {a b : κ}, rank a = rank b → a = b

export Ranked (rank)

theorem rank_inj {κ : Type} [Ranked κ] {a b : κ} : rank a = rank b ↔ a = b :=
  ⟨Ranked.rank_injective, congrArg _⟩

instance : Ranked Nat where
  rank n := n
  rank_injective h := h

instance : Ranked UInt16 where
  rank n := n.toNat
  rank_injective h := UInt16.toNat_inj.1 h

/-- Entries with strictly ascending keys. -/
structure SortedMap (κ α : Type) [Ranked κ] where
  entries : List (κ × α)
  ascending : entries.Pairwise fun a b => rank a.1 < rank b.1

namespace SortedMap

variable {κ α : Type} [Ranked κ]

def empty : SortedMap κ α := ⟨[], .nil⟩

def size (m : SortedMap κ α) : Nat := m.entries.length

def keys (m : SortedMap κ α) : List κ := m.entries.map (·.1)

def values (m : SortedMap κ α) : List α := m.entries.map (·.2)

/-- The value at a key. -/
def get? (m : SortedMap κ α) (k : κ) : Option α :=
  (m.entries.find? fun e => rank e.1 == rank k).map (·.2)

def contains (m : SortedMap κ α) (k : κ) : Bool := (m.get? k).isSome

/-- The first entry of all. -/
def first? (m : SortedMap κ α) : Option (κ × α) := m.entries.head?

/-- The first entry behind a key, whether or not the key is present. -/
def after? (m : SortedMap κ α) (k : κ) : Option (κ × α) := m.entries.find? fun e => rank k < rank e.1

/-- An entry put at its place, instead of one with the same key. -/
def place (k : κ) (v : α) : List (κ × α) → List (κ × α)
  | [] => [(k, v)]
  | e :: es =>
    if rank k < rank e.1 then (k, v) :: e :: es
    else if rank e.1 < rank k then e :: place k v es
    else (k, v) :: es

theorem mem_place {k : κ} {v : α} {e : κ × α} {es : List (κ × α)} (h : e ∈ place k v es) :
    e = (k, v) ∨ e ∈ es := by
  induction es with
  | nil => simpa [place] using h
  | cons d es ih =>
    rw [place] at h
    split at h
    · simpa using h
    · split at h
      · rcases List.mem_cons.1 h with rfl | h
        · exact .inr (by simp)
        · exact (ih h).imp id (List.mem_cons_of_mem _)
      · rcases List.mem_cons.1 h with rfl | h
        · exact .inl rfl
        · exact .inr (List.mem_cons_of_mem _ h)

theorem ascending_place {k : κ} {v : α} {es : List (κ × α)}
    (h : es.Pairwise fun a b => rank a.1 < rank b.1) :
    (place k v es).Pairwise fun a b => rank a.1 < rank b.1 := by
  induction es with
  | nil => simp [place]
  | cons d es ih =>
    obtain ⟨hd, hes⟩ := List.pairwise_cons.1 h
    rw [place]
    split
    · rename_i lt
      refine List.pairwise_cons.2 ⟨fun e he => ?_, h⟩
      rcases List.mem_cons.1 he with rfl | he
      · exact lt
      · exact Nat.lt_trans lt (hd e he)
    · split
      · rename_i lt
        refine List.pairwise_cons.2 ⟨fun e he => ?_, ih hes⟩
        rcases mem_place he with rfl | he
        · exact lt
        · exact hd e he
      · rename_i ge le
        refine List.pairwise_cons.2 ⟨fun e he => ?_, hes⟩
        have := hd e he
        exact Nat.lt_of_le_of_lt (Nat.le_of_not_lt le) this

def insert (m : SortedMap κ α) (k : κ) (v : α) : SortedMap κ α :=
  ⟨place k v m.entries, ascending_place m.ascending⟩

def erase (m : SortedMap κ α) (k : κ) : SortedMap κ α :=
  ⟨m.entries.filter fun e => rank e.1 != rank k, m.ascending.filter _⟩

/-- The value at a key changed in place; nothing when the key is absent. -/
def modify (m : SortedMap κ α) (k : κ) (f : α → α) : SortedMap κ α :=
  ⟨m.entries.map fun e => if rank e.1 = rank k then (e.1, f e.2) else e,
    m.ascending.map _ fun a b h => by split <;> split <;> exact h⟩

/-! ## Look-ups -/

@[simp] theorem get?_empty (k : κ) : (empty : SortedMap κ α).get? k = none := rfl

theorem find?_place (k : κ) (v : α) (k' : κ) (es : List (κ × α)) :
    ((place k v es).find? fun e => rank e.1 == rank k') =
      if rank k = rank k' then some (k, v) else es.find? fun e => rank e.1 == rank k' := by
  induction es with
  | nil => by_cases h : rank k = rank k' <;> simp [place, h]
  | cons d es ih =>
    rw [place]
    split
    · by_cases h : rank k = rank k' <;> simp [h]
    · split
      · rename_i lt
        rw [List.find?_cons, ih, List.find?_cons]
        by_cases h : rank k = rank k'
        · have : (rank d.1 == rank k') = false := by
            simp only [beq_eq_false_iff_ne]; omega
          simp [h, this]
        · simp [h]
      · have hd : rank d.1 = rank k := by omega
        by_cases h : rank k = rank k' <;> simp [h, hd]

theorem get?_insert (m : SortedMap κ α) (k : κ) (v : α) (k' : κ) :
    (m.insert k v).get? k' = if rank k = rank k' then some v else m.get? k' := by
  simp only [get?, insert, find?_place]
  split <;> rfl

theorem get?_erase (m : SortedMap κ α) (k k' : κ) :
    (m.erase k).get? k' = if rank k = rank k' then none else m.get? k' := by
  simp only [get?, erase, List.find?_filter]
  split
  · rename_i h
    simp only [Option.map_eq_none_iff, List.find?_eq_none]
    intro e _
    simp [h]
  · rename_i h
    congr 2
    funext e
    by_cases he : rank e.1 = rank k'
    · have : rank e.1 ≠ rank k := fun hk => h (hk.symm.trans he)
      simp [he, bne_iff_ne]; omega
    · simp [he]

theorem get?_modify (m : SortedMap κ α) (k : κ) (f : α → α) (k' : κ) :
    (m.modify k f).get? k' = if rank k = rank k' then (m.get? k').map f else m.get? k' := by
  simp only [get?, modify]
  induction m.entries with
  | nil => simp
  | cons e es ih =>
    simp only [List.map_cons, List.find?_cons]
    by_cases hk : rank e.1 = rank k <;> by_cases hk' : rank e.1 = rank k'
    · have : rank k = rank k' := hk ▸ hk'
      simp [hk, this]
    · have : rank k ≠ rank k' := fun h => hk' (hk.trans h)
      have ne : (rank k == rank k') = false := by simpa using this
      simpa [hk, ne, this] using ih
    · have : rank k ≠ rank k' := fun h => hk (hk'.trans h.symm)
      simp [hk', this, Ne.symm this]
    · have ne : (rank e.1 == rank k') = false := by simpa using hk'
      simpa [hk, ne] using ih

@[simp] theorem keys_modify (m : SortedMap κ α) (k : κ) (f : α → α) : (m.modify k f).keys = m.keys := by
  simp only [keys, modify, List.map_map]
  congr 1
  funext e
  simp only [Function.comp]
  split <;> rfl

@[simp] theorem size_modify (m : SortedMap κ α) (k : κ) (f : α → α) : (m.modify k f).size = m.size := by
  simp [size, modify]

/-- An entry of the map is what a look-up of its key finds. -/
theorem get?_of_mem {m : SortedMap κ α} {k : κ} {v : α} (h : (k, v) ∈ m.entries) : m.get? k = some v := by
  obtain ⟨es, asc⟩ := m
  simp only [get?]
  induction es with
  | nil => cases h
  | cons e es ih =>
    obtain ⟨he, hes⟩ := List.pairwise_cons.1 asc
    rcases List.mem_cons.1 h with rfl | h
    · simp
    · have := he _ h
      have ne : (rank e.1 == rank k) = false := beq_eq_false_iff_ne.2 (Nat.ne_of_lt this)
      rw [List.find?_cons, ne]
      exact ih hes h

/-- What a look-up finds is an entry. -/
theorem mem_of_get? {m : SortedMap κ α} {k : κ} {v : α} (h : m.get? k = some v) : (k, v) ∈ m.entries := by
  simp only [get?, Option.map_eq_some_iff] at h
  obtain ⟨e, he, rfl⟩ := h
  have hk := List.find?_some he
  have : e.1 = k := rank_inj.1 (by simpa using hk)
  exact this ▸ List.mem_of_find?_eq_some he

end SortedMap

end ControlPlane
