/-
The index of route ids is exact: it leads from an id to the route that has it.

Every operation on the table keeps it so. It follows that ids are unique
(`Indexed.id_unique`), and that a look-up, the ids listed and the stored routes
agree (`Indexed.get?_eq_some_iff`).
-/
import ControlPlane.Proofs.Store.Sequenced
import ControlPlane.Routing.Table
import ControlPlane.Store.Keyed

namespace ControlPlane.RouteTable

/-- The index leads from an id to the number of the route that has it, and
nowhere from an id that none has. -/
def Indexed (t : RouteTable) : Prop :=
  ∀ id seq, t.byId.get? id = some seq ↔ ∃ r, t.routes.get? seq = some r ∧ r.id = id

variable {t t' : RouteTable} {r r' : Route} {id : UInt32}

/-! ## What an exact index says -/

theorem Indexed.id_unique (h : t.Indexed) {seq seq' : Nat} (hr : t.routes.get? seq = some r)
    (hr' : t.routes.get? seq' = some r') (hid : r.id = r'.id) : seq = seq' := by
  have := (h r.id seq).2 ⟨r, hr, rfl⟩
  rw [(h r.id seq').2 ⟨r', hr', hid.symm⟩] at this
  exact (Option.some.inj this).symm

/-- Looking for an id finds the stored route that has it. -/
theorem Indexed.get?_eq_some_iff (h : t.Indexed) :
    t.get? id = some r ↔ r ∈ t.routes.values ∧ r.id = id := by
  rw [Sequenced.mem_values_iff, get?, Sequenced.IndexedBy.bind_eq_some_iff h, exists_and_right]

theorem contains_eq_false_iff : t.contains id = false ↔ t.byId.get? id = none := by
  simp [contains, Index.contains]

/-- An id is known when it leads to a route. -/
theorem Indexed.contains_eq (h : t.Indexed) (id : UInt32) : t.contains id = (t.get? id).isSome := by
  cases leads : t.byId.get? id with
  | none => rw [contains_eq_false_iff.2 leads, get?, leads, Option.bind_none, Option.isSome_none]
  | some seq =>
    obtain ⟨r, stored, -⟩ := (h id seq).1 leads
    have known : t.contains id = true := by
      rw [← Bool.not_eq_false, contains_eq_false_iff, leads]
      exact Option.some_ne_none seq
    rw [known, get?, leads, Option.bind_some, stored, Option.isSome_some]

/-! ## Every operation keeps the index exact -/

theorem indexed_empty : empty.Indexed := Sequenced.indexedBy_empty

theorem add_eq_ok_iff :
    t.add r = .ok t' ↔
      t.byId.get? r.id = none ∧
        t' = { routes := t.routes.push r, byId := t.byId.insert r.id t.routes.next } := by
  rw [← contains_eq_false_iff, add]
  split
  · next h => simp [h]
  · next h => simp [h, eq_comm]

theorem add_ne_ok (t : RouteTable) (r : Route) : t.add r ≠ .error .ok := by
  unfold RouteTable.add
  split <;> simp

/-- The id of a new route is that of no other. -/
theorem id_ne_of_add (ha : t.add r = .ok t') (hr : t.get? id = some r') : r.id ≠ id := by
  rintro rfl
  simp [get?, (add_eq_ok_iff.1 ha).1] at hr

theorem Indexed.add (h : t.Indexed) (ha : t.add r = .ok t') : t'.Indexed := by
  obtain ⟨free, rfl⟩ := add_eq_ok_iff.1 ha
  exact Sequenced.IndexedBy.push h free

/-- What a removal leads to, when the id is taken. -/
theorem remove_of_get? (hr : t.get? id = some r) :
    ∃ seq, t.byId.get? id = some seq ∧ t.routes.get? seq = some r ∧
      t.remove id = (some r, { routes := t.routes.erase seq, byId := t.byId.erase id }) := by
  obtain ⟨seq, hseq, hr⟩ := Option.bind_eq_some_iff.1 hr
  exact ⟨seq, hseq, hr, by simp [remove, hseq, hr]⟩

theorem Indexed.remove (h : t.Indexed) (id : UInt32) : (t.remove id).2.Indexed := by
  unfold RouteTable.remove
  split
  · exact h
  · next seq leads => exact Sequenced.IndexedBy.erase h leads

theorem Indexed.modify {f : Route → Route} (h : t.Indexed) (hf : ∀ r, (f r).id = r.id) (id : UInt32) :
    (t.modify id f).Indexed := by
  unfold RouteTable.modify
  split
  · exact h
  · next seq _ => exact Sequenced.IndexedBy.modify h hf seq

/-! ## Look-ups after an operation -/

theorem Indexed.get?_add (h : t.Indexed) (ha : t.add r = .ok t') (id : UInt32) :
    t'.get? id = if r.id = id then some r else t.get? id := by
  obtain ⟨free, rfl⟩ := add_eq_ok_iff.1 ha
  apply Option.ext
  intro r'
  rw [(h.add ha).get?_eq_some_iff, Sequenced.values_push, List.mem_append, List.mem_singleton]
  split
  · next hid =>
    subst hid
    have unstored : ¬ (r' ∈ t.routes.values ∧ r'.id = r.id) := fun hs => by
      have := h.get?_eq_some_iff.2 hs
      simp [get?, free] at this
    rw [Option.some.injEq]
    exact ⟨fun ⟨hm, he⟩ => (hm.resolve_left fun hv => unstored ⟨hv, he⟩).symm, fun he => ⟨.inr he.symm, he ▸ rfl⟩⟩
  · next hid =>
    rw [h.get?_eq_some_iff]
    exact and_congr_left fun he => or_iff_left fun hr => hid (hr ▸ he)

/-- Two ids do not lead to one route. -/
theorem Indexed.eq_of_number (h : t.Indexed) {id id' : UInt32} {seq : Nat} (hi : t.byId.get? id = some seq)
    (hi' : t.byId.get? id' = some seq) : id = id' := by
  obtain ⟨r, hr, rfl⟩ := (h id seq).1 hi
  obtain ⟨r', hr', rfl⟩ := (h id' seq).1 hi'
  cases hr.symm.trans hr'
  rfl

theorem Indexed.get?_remove (h : t.Indexed) (id id' : UInt32) :
    (t.remove id).2.get? id' = if id = id' then none else t.get? id' := by
  cases hi : t.byId.get? id with
  | none =>
    have same : (t.remove id).2 = t := by simp [RouteTable.remove, hi]
    rw [same]
    split
    · next he => simp [get?, ← he, hi]
    · rfl
  | some seq =>
    simp only [RouteTable.remove, hi, get?, Index.get?_erase]
    split
    · rfl
    · next hne =>
      cases hi' : t.byId.get? id' with
      | none => rfl
      | some seq' =>
        have : seq ≠ seq' := fun he => hne (h.eq_of_number hi (he ▸ hi'))
        simp [Sequenced.get?_erase, this]

theorem Indexed.get?_modify (h : t.Indexed) (id : UInt32) (f : Route → Route) (id' : UInt32) :
    (t.modify id f).get? id' = if id = id' then (t.get? id').map f else t.get? id' := by
  cases hi : t.byId.get? id with
  | none =>
    have same : t.modify id f = t := by simp [RouteTable.modify, hi]
    rw [same]
    split
    · next he => simp [get?, ← he, hi]
    · rfl
  | some seq =>
    simp only [RouteTable.modify, hi, get?]
    split
    · next he => simp [← he, hi, Sequenced.get?_modify]
    · next hne =>
      cases hi' : t.byId.get? id' with
      | none => rfl
      | some seq' =>
        have : seq ≠ seq' := fun he => hne (h.eq_of_number hi (he ▸ hi'))
        simp [Sequenced.get?_modify, this]

/-- The route of an id is changed under its number. -/
theorem get?_routes_modify (t : RouteTable) (id : UInt32) (f : Route → Route) (seq : Nat) :
    (t.modify id f).routes.get? seq =
      if t.byId.get? id = some seq then (t.routes.get? seq).map f else t.routes.get? seq := by
  cases leads : t.byId.get? id with
  | none => simp [modify, leads]
  | some n => simp [modify, leads, Sequenced.get?_modify]

end ControlPlane.RouteTable
