/-
Tables in order of insertion with an index of their keys.

The index is exact (`Sequenced.IndexedBy`) when it leads from a key to the number of the
entry that has it, and nowhere from a key that none has. So no two entries have one key, and
looking for a key finds the entry that has it. Every operation that is done on both keeps
the index exact.
-/
import ControlPlane.Store.Index
import ControlPlane.Store.Sequenced

namespace ControlPlane.Sequenced

variable {α κ : Type} [DecidableEq κ]

/-- The index leads from a key to the number of the entry that has it, and nowhere from a
key that none has. -/
def IndexedBy (s : Sequenced α) (key : α → κ) (x : Index κ Nat) : Prop :=
  ∀ k seq, x.get? k = some seq ↔ ∃ a, s.get? seq = some a ∧ key a = k

variable {s : Sequenced α} {key : α → κ} {x : Index κ Nat}

/-- Looking for a key finds the entry that has it. -/
theorem IndexedBy.bind_eq_some_iff (h : s.IndexedBy key x) {k : κ} {a : α} :
    (x.get? k).bind s.get? = some a ↔ ∃ seq, s.get? seq = some a ∧ key a = k := by
  rw [Option.bind_eq_some_iff]
  constructor
  · rintro ⟨seq, leads, stored⟩
    obtain ⟨b, found, hb⟩ := (h k seq).1 leads
    cases stored.symm.trans found
    exact ⟨seq, stored, hb⟩
  · rintro ⟨seq, stored, hk⟩
    exact ⟨seq, (h k seq).2 ⟨a, stored, hk⟩, stored⟩

theorem indexedBy_empty : (empty : Sequenced α).IndexedBy key .empty := by
  intro k seq
  simp

/-- A new entry with a key that none had. -/
theorem IndexedBy.push (h : s.IndexedBy key x) {a : α} (free : x.get? (key a) = none) :
    (s.push a).IndexedBy key (x.insert (key a) s.next) := by
  intro k seq
  rw [Index.get?_insert, get?_push]
  by_cases new : seq = s.next
  · subst new
    -- The new number was not given out, so no key led there.
    have fresh : s.get? s.next = none := get?_of_last_lt (Nat.lt_succ_self _)
    have unowned : x.get? k ≠ some s.next := fun leads => by
      obtain ⟨b, found, -⟩ := (h k _).1 leads
      rw [fresh] at found
      cases found
    by_cases own : key a = k <;> simp [own, unowned]
  · simp only [new, if_false, ← h k seq]
    by_cases own : key a = k
    · subst own
      simp [free, Ne.symm new]
    · simp [own]

/-- An entry that goes with its key. -/
theorem IndexedBy.erase (h : s.IndexedBy key x) {k : κ} {seq : Nat} (leads : x.get? k = some seq) :
    (s.erase seq).IndexedBy key (x.erase k) := by
  obtain ⟨a, stored, own⟩ := (h k seq).1 leads
  intro k' seq'
  rw [Index.get?_erase, get?_erase]
  by_cases same : seq = seq'
  · subst same
    by_cases hk : k = k'
    · simp [hk]
    · simp only [hk, if_false, if_true, h k' seq, stored]
      simp [own, hk]
  · simp only [same, if_false, ← h k' seq']
    by_cases hk : k = k'
    · subst hk
      simp [leads, same]
    · simp [hk]

/-- An entry that keeps its key. -/
theorem IndexedBy.modify (h : s.IndexedBy key x) {f : α → α} (keeps : ∀ a, key (f a) = key a) (seq : Nat) :
    (s.modify seq f).IndexedBy key x := by
  intro k seq'
  refine (h k seq').trans ?_
  rw [get?_modify]
  split
  · cases s.get? seq' <;> simp [keeps]
  · rfl

end ControlPlane.Sequenced
