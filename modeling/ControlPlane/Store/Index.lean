/-
An index: each key leads to one value, in no order that matters.
-/
namespace ControlPlane

/-- Pairs in which no key occurs twice. -/
structure Index (κ β : Type) [DecidableEq κ] where
  pairs : List (κ × β)
  distinct : pairs.Pairwise fun a b => a.1 ≠ b.1

namespace Index

variable {κ β : Type} [DecidableEq κ]

def empty : Index κ β := ⟨[], .nil⟩

def size (x : Index κ β) : Nat := x.pairs.length

def get? (x : Index κ β) (k : κ) : Option β := (x.pairs.find? (·.1 == k)).map (·.2)

def contains (x : Index κ β) (k : κ) : Bool := (x.get? k).isSome

def erase (x : Index κ β) (k : κ) : Index κ β := ⟨x.pairs.filter (·.1 != k), x.distinct.filter _⟩

/-- The key leads to the value, whatever it led to before. -/
def insert (x : Index κ β) (k : κ) (b : β) : Index κ β :=
  ⟨(k, b) :: (x.erase k).pairs, List.pairwise_cons.2
    ⟨fun e he h => by
      have := (List.mem_filter.1 he).2
      simp only [bne_iff_ne] at this
      exact this h.symm,
    (x.erase k).distinct⟩⟩

@[simp] theorem get?_empty (k : κ) : (empty : Index κ β).get? k = none := rfl

theorem get?_erase (x : Index κ β) (k k' : κ) :
    (x.erase k).get? k' = if k = k' then none else x.get? k' := by
  simp only [get?, erase, List.find?_filter]
  split
  · rename_i h
    subst h
    simp only [Option.map_eq_none_iff, List.find?_eq_none]
    intro e _
    simp
  · rename_i h
    congr 2
    funext e
    by_cases he : e.1 = k' <;> simp [he]
    exact fun hk => h hk.symm

theorem get?_insert (x : Index κ β) (k : κ) (b : β) (k' : κ) :
    (x.insert k b).get? k' = if k = k' then some b else x.get? k' := by
  have he := get?_erase x k k'
  simp only [get?, insert, List.find?_cons] at he ⊢
  by_cases h : k = k'
  · simp [h]
  · have hne : (k == k') = false := by simpa using h
    simp only [hne, h, if_false] at he ⊢
    exact he

/-- A pair of the index is what a look-up of its key finds. -/
theorem get?_eq_some_iff {x : Index κ β} {k : κ} {b : β} : x.get? k = some b ↔ (k, b) ∈ x.pairs := by
  obtain ⟨ps, hd⟩ := x
  simp only [get?]
  induction ps with
  | nil => simp
  | cons p ps ih =>
    obtain ⟨hp, hps⟩ := List.pairwise_cons.1 hd
    rw [List.find?_cons]
    by_cases h : p.1 = k
    · subst h
      simp only [beq_self_eq_true, Option.map_some, Option.some.injEq, List.mem_cons]
      constructor
      · rintro rfl; exact .inl rfl
      · rintro (h | h)
        · exact congrArg Prod.snd h.symm
        · exact (hp (p.1, b) h rfl).elim
    · have hne : (p.1 == k) = false := by simpa using h
      rw [hne]
      simp only [List.mem_cons]
      rw [ih hps]
      exact ⟨.inr, fun hm => hm.resolve_left fun he => h (congrArg Prod.fst he).symm⟩

end Index

end ControlPlane
