/-
Tables in order of insertion. Each entry has a sequence number; numbers only
grow, also when entries are removed or the table is emptied, so none is ever used
twice. One lemma per operation says what it does to a look-up: `get?_push`,
`get?_erase`, `get?_modify`.
-/
import ControlPlane.Store.SortedMap

namespace ControlPlane

/-- Entries by sequence number, and the last number that was given out. -/
structure Sequenced (α : Type) where
  table : SortedMap Nat α
  last : Nat
  bounded : ∀ e ∈ table.entries, e.1 ≤ last

namespace Sequenced

variable {α : Type}

def empty : Sequenced α := ⟨.empty, 0, fun _ h => nomatch h⟩

def entries (s : Sequenced α) : List (Nat × α) := s.table.entries

def values (s : Sequenced α) : List α := s.table.values

def numbers (s : Sequenced α) : List Nat := s.table.keys

def size (s : Sequenced α) : Nat := s.table.size

def get? (s : Sequenced α) (seq : Nat) : Option α := s.table.get? seq

/-- The number that the next entry gets. -/
def next (s : Sequenced α) : Nat := s.last + 1

/-- A new entry behind all others. -/
def push (s : Sequenced α) (a : α) : Sequenced α where
  table :=
    ⟨s.entries ++ [(s.next, a)], List.pairwise_append.2
      ⟨s.table.ascending, List.pairwise_singleton _ _, fun e he f hf => by
        cases List.mem_singleton.1 hf
        exact Nat.lt_succ_of_le (s.bounded e he)⟩⟩
  last := s.next
  bounded := fun e he => by
    rcases List.mem_append.1 he with he | he
    · exact Nat.le_succ_of_le (s.bounded e he)
    · cases List.mem_singleton.1 he; exact Nat.le_refl _

def erase (s : Sequenced α) (seq : Nat) : Sequenced α :=
  ⟨s.table.erase seq, s.last, fun e he => s.bounded e (List.mem_filter.1 he).1⟩

def modify (s : Sequenced α) (seq : Nat) (f : α → α) : Sequenced α :=
  ⟨s.table.modify seq f, s.last, fun e he => by
    obtain ⟨d, hd, rfl⟩ := List.mem_map.1 he
    split <;> exact s.bounded d hd⟩

/-- No entries; numbers go on from where they were. -/
def clear (s : Sequenced α) : Sequenced α := ⟨.empty, s.last, fun _ h => nomatch h⟩

@[simp] theorem entries_empty : (empty : Sequenced α).entries = [] := rfl

@[simp] theorem entries_push (s : Sequenced α) (a : α) :
    (s.push a).entries = s.entries ++ [(s.next, a)] := rfl

@[simp] theorem entries_erase (s : Sequenced α) (seq : Nat) :
    (s.erase seq).entries = s.entries.filter (·.1 != seq) := rfl

@[simp] theorem entries_clear (s : Sequenced α) : s.clear.entries = [] := rfl

@[simp] theorem last_push (s : Sequenced α) (a : α) : (s.push a).last = s.last + 1 := rfl

@[simp] theorem last_erase (s : Sequenced α) (seq : Nat) : (s.erase seq).last = s.last := rfl

@[simp] theorem last_modify (s : Sequenced α) (seq : Nat) (f : α → α) : (s.modify seq f).last = s.last := rfl

@[simp] theorem last_clear (s : Sequenced α) : s.clear.last = s.last := rfl

/-! ## Look-ups -/

theorem mem_entries_iff {s : Sequenced α} {seq : Nat} {a : α} :
    (seq, a) ∈ s.entries ↔ s.get? seq = some a :=
  ⟨SortedMap.get?_of_mem, SortedMap.mem_of_get?⟩

@[simp] theorem get?_empty (seq : Nat) : (empty : Sequenced α).get? seq = none := rfl

@[simp] theorem get?_clear (s : Sequenced α) (seq : Nat) : s.clear.get? seq = none := rfl

/-- A number that was not given out yet finds nothing. -/
theorem get?_of_last_lt {s : Sequenced α} {seq : Nat} (h : s.last < seq) : s.get? seq = none := by
  cases hg : s.get? seq with
  | none => rfl
  | some a => exact absurd (s.bounded _ (SortedMap.mem_of_get? hg)) (Nat.not_le_of_lt h)

theorem get?_push (s : Sequenced α) (a : α) (seq : Nat) :
    (s.push a).get? seq = if seq = s.next then some a else s.get? seq := by
  apply Option.ext
  intro b
  rw [← mem_entries_iff, entries_push, List.mem_append, mem_entries_iff, List.mem_singleton, Prod.mk.injEq]
  split
  · next h =>
    subst h
    have fresh : s.get? s.next = none := get?_of_last_lt (Nat.lt_succ_self _)
    rw [fresh]
    simp [eq_comm]
  · next h => simp [h]

theorem get?_erase (s : Sequenced α) (seq seq' : Nat) :
    (s.erase seq).get? seq' = if seq = seq' then none else s.get? seq' :=
  SortedMap.get?_erase ..

theorem get?_modify (s : Sequenced α) (seq : Nat) (f : α → α) (seq' : Nat) :
    (s.modify seq f).get? seq' = if seq = seq' then (s.get? seq').map f else s.get? seq' :=
  SortedMap.get?_modify ..

end Sequenced

end ControlPlane
