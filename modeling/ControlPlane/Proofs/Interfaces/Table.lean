/-
The table of interfaces that settings describe.

Looking for a name finds the interface that has it (`resolve?_eq_some_iff`). Interfaces are put
in one by one, and whether the next one is taken depends on the names and ids that are there. So
settings come to a table just when, with those of the table before them, no name and no id is there
twice and every hardware address can be read (`insertAll_ok_iff`); the table then holds the
interfaces that they describe, in their order (`insertAll_describes`).
-/
import ControlPlane.Interfaces.Table
import ControlPlane.Proofs.Store.Sequenced

namespace ControlPlane

theorem bind_eq_ok_iff {ε α β : Type} {x : Except ε α} {f : α → Except ε β} {b : β} :
    x >>= f = .ok b ↔ ∃ a, x = .ok a ∧ f a = .ok b := by
  cases x with
  | error _ => simp [bind, Except.bind]
  | ok a => simp [bind, Except.bind]

/-! ## Settings -/

namespace InterfaceSettings

/-- The hardware address that is given, if any, spells one. -/
def MacReads (s : InterfaceSettings) : Prop := ∀ text, s.mac = some text → ∃ mac, Mac.ofText text = .ok mac

/-- The id and the hardware address of an interface are those of settings at a place of their list,
which stands for an id that is not given as the id does for an address. -/
structure Identifies (s : InterfaceSettings) (place : Nat) (i : Interface) : Prop where
  id : i.id = s.effectiveId place
  given : ∀ text, s.mac = some text → Mac.ofText text = .ok i.mac
  derived : s.mac = none → i.mac = .ofNumber i.id

theorem Identifies.congr {s : InterfaceSettings} {place : Nat} {i j : Interface} (h : s.Identifies place i)
    (id : j.id = i.id) (mac : j.mac = i.mac) : s.Identifies place j where
  id := id.trans h.id
  given text ht := by rw [mac, h.given text ht]
  derived none := by rw [mac, id, h.derived none]

/-- The interface that settings describe at a place of their list. -/
structure Describes (s : InterfaceSettings) (place : Nat) (i : Interface) : Prop extends
    s.Identifies place i where
  name : i.name = s.name
  enabled : i.enabled = s.enabled
  promiscuous : i.promiscuous = s.promiscuous
  received : i.received = 0
  sent : i.sent = 0

/-- The ids of interfaces, the first of which has a place. -/
def effectiveIds (place : Nat) (settings : List InterfaceSettings) : List UInt32 :=
  (settings.zipIdx place).map fun x => x.1.effectiveId x.2

/-- Settings from a place on that can be put behind names and ids that are taken: each name
and each id is new, and each hardware address can be read. -/
structure Admissible (names : List String) (ids : List UInt32) (place : Nat)
    (settings : List InterfaceSettings) : Prop where
  names_nodup : (settings.map (·.name)).Nodup
  names_new : ∀ name ∈ settings.map (·.name), name ∉ names
  ids_nodup : (effectiveIds place settings).Nodup
  ids_new : ∀ id ∈ effectiveIds place settings, id ∉ ids
  macs : ∀ s ∈ settings, s.MacReads

variable {names names' : List String} {ids ids' : List UInt32} {place : Nat} {s : InterfaceSettings}
  {settings : List InterfaceSettings}

theorem admissible_nil : Admissible names ids place [] where
  names_nodup := .nil
  names_new _ h := nomatch h
  ids_nodup := .nil
  ids_new _ h := nomatch h
  macs _ h := nomatch h

/-- The first has a new name and a new id, and the others can be put behind it. -/
theorem admissible_cons :
    Admissible names ids place (s :: settings) ↔
      s.name ∉ names ∧ s.effectiveId place ∉ ids ∧ s.MacReads ∧
        Admissible (s.name :: names) (s.effectiveId place :: ids) (place + 1) settings := by
  have all : effectiveIds place (s :: settings) = s.effectiveId place :: effectiveIds (place + 1) settings := rfl
  constructor
  · rintro ⟨names_nodup, names_new, ids_nodup, ids_new, macs⟩
    rw [List.map_cons] at names_nodup names_new
    rw [all] at ids_nodup ids_new
    obtain ⟨name, names_nodup⟩ := List.nodup_cons.1 names_nodup
    obtain ⟨id, ids_nodup⟩ := List.nodup_cons.1 ids_nodup
    refine ⟨names_new _ List.mem_cons_self, ids_new _ List.mem_cons_self, macs _ List.mem_cons_self,
      names_nodup, fun n hn => ?_, ids_nodup, fun n hn => ?_, fun s' hs => macs s' (List.mem_cons_of_mem _ hs)⟩
    · exact List.not_mem_cons_of_ne_of_not_mem (fun same => name (same ▸ hn)) (names_new n (List.mem_cons_of_mem _ hn))
    · exact List.not_mem_cons_of_ne_of_not_mem (fun same => id (same ▸ hn)) (ids_new n (List.mem_cons_of_mem _ hn))
  · rintro ⟨name, id, mac, names_nodup, names_new, ids_nodup, ids_new, macs⟩
    refine ⟨?_, ?_, ?_, ?_, List.forall_mem_cons.2 ⟨mac, macs⟩⟩
    · exact List.nodup_cons.2 ⟨fun twice => names_new _ twice List.mem_cons_self, names_nodup⟩
    · exact List.forall_mem_cons.2 ⟨name, fun n hn taken => names_new n hn (List.mem_cons_of_mem _ taken)⟩
    · exact List.nodup_cons.2 ⟨fun twice => ids_new _ twice List.mem_cons_self, ids_nodup⟩
    · exact List.forall_mem_cons.2 ⟨id, fun n hn taken => ids_new n hn (List.mem_cons_of_mem _ taken)⟩

/-- The order in which names and ids were taken does not matter. -/
theorem Admissible.congr (h : Admissible names ids place settings) (hn : ∀ n, n ∈ names' ↔ n ∈ names)
    (hi : ∀ n, n ∈ ids' ↔ n ∈ ids) : Admissible names' ids' place settings where
  names_nodup := h.names_nodup
  names_new n hm taken := h.names_new n hm ((hn n).1 taken)
  ids_nodup := h.ids_nodup
  ids_new n hm taken := h.ids_new n hm ((hi n).1 taken)
  macs := h.macs

variable {interfaces : List Interface}

/-- What settings describe has their names. -/
theorem map_name_of_describes (h : List.Forall₂ (fun x i => x.1.Describes x.2 i) (settings.zipIdx place) interfaces) :
    interfaces.map (·.name) = settings.map (·.name) := by
  induction settings generalizing place interfaces with
  | nil =>
    cases h
    rfl
  | cons s settings ih =>
    cases h with
    | cons described rest => rw [List.map_cons, List.map_cons, described.name, ih rest]

/-- It has their ids, as their places complete them. -/
theorem map_id_of_describes (h : List.Forall₂ (fun x i => x.1.Describes x.2 i) (settings.zipIdx place) interfaces) :
    interfaces.map (·.id) = effectiveIds place settings := by
  induction settings generalizing place interfaces with
  | nil =>
    cases h
    rfl
  | cons s settings ih =>
    cases h with
    | cons described rest => exact congrArg₂ List.cons described.id (ih rest)

end InterfaceSettings

/-! ## The table -/

namespace InterfaceTable

open InterfaceSettings

variable {t t' : InterfaceTable} {i : Interface} {place : Nat} {s : InterfaceSettings}
  {settings : List InterfaceSettings}

/-- Looking for a name finds the one interface that has it. -/
theorem resolve?_eq_some_iff {name : String} :
    t.resolve? name = some i ↔ i ∈ t.interfaces.values ∧ i.name = name := by
  rw [resolve?, t.indexed.bind_eq_some_iff, exists_and_right, Sequenced.mem_values_iff]

/-- Looking for an id finds the interface that has it, when no other does. -/
theorem getById?_eq_some_iff (distinct : (t.interfaces.values.map (·.id)).Nodup) {id : UInt32} :
    t.getById? id = some i ↔ i ∈ t.interfaces.values ∧ i.id = id := by
  unfold getById?
  constructor
  · intro found
    exact ⟨List.mem_of_find?_eq_some found, by simpa using List.find?_some found⟩
  · rintro ⟨stored, rfl⟩
    have some : (t.interfaces.values.find? (·.id == i.id)).isSome = true :=
      List.find?_isSome.2 ⟨i, stored, beq_self_eq_true i.id⟩
    obtain ⟨j, found⟩ := Option.isSome_iff_exists.1 some
    have same : j.id = i.id := by simpa using List.find?_some found
    rw [found, List.inj_on_of_nodup_map distinct (List.mem_of_find?_eq_some found) stored same]

theorem contains_byName_eq_false_iff {name : String} :
    t.byName.contains name = false ↔ name ∉ t.interfaces.values.map (·.name) := by
  rw [Index.contains, Option.isSome_eq_false_iff, Option.isNone_iff_eq_none, List.mem_map]
  constructor
  · rintro none ⟨i, stored, rfl⟩
    obtain ⟨seq, stored⟩ := Sequenced.mem_values_iff.1 stored
    rw [(t.indexed _ seq).2 ⟨i, stored, rfl⟩] at none
    cases none
  · intro absent
    rw [Option.eq_none_iff_forall_ne_some]
    intro seq leads
    obtain ⟨i, stored, named⟩ := (t.indexed _ seq).1 leads
    exact absent ⟨i, Sequenced.mem_values_iff.2 ⟨seq, stored⟩, named⟩

theorem isSome_getById?_eq_false_iff {id : UInt32} :
    (t.getById? id).isSome = false ↔ id ∉ t.interfaces.values.map (·.id) := by
  simp only [getById?, Option.isSome_eq_false_iff, Option.isNone_iff_eq_none, List.find?_eq_none, beq_iff_eq,
    List.mem_map, not_exists, not_and]

/-- An interface is put in when its name and its id are new. -/
theorem insert_ok_iff :
    (∃ t', t.insert i = .ok t') ↔
      i.name ∉ t.interfaces.values.map (·.name) ∧ i.id ∉ t.interfaces.values.map (·.id) := by
  rw [← contains_byName_eq_false_iff, ← isSome_getById?_eq_false_iff, insert]
  split
  · next named => simp [named]
  · next named =>
    split
    · next taken => simp [taken]
    · next free => simp [named, free]

theorem values_insert (h : t.insert i = .ok t') : t'.interfaces.values = t.interfaces.values ++ [i] := by
  unfold insert at h
  split at h
  · cases h
  · split at h
    · cases h
    · cases h
      exact Sequenced.values_push _ _

/-! ## From the settings -/

/-- Settings come to an interface when their hardware address can be read. -/
theorem ofSetting_ok_iff : (∃ i, ofSetting place s = .ok i) ↔ s.MacReads := by
  unfold ofSetting
  cases given : s.mac with
  | none => exact ⟨fun _ text h => (nomatch given.symm.trans h), fun _ => ⟨_, rfl⟩⟩
  | some text =>
    simp only [bind_eq_ok_iff, Mac.parse]
    constructor
    · rintro ⟨i, mac, read, -⟩ text' h
      cases given.symm.trans h
      cases spelled : Mac.ofText text with
      | ok mac => exact ⟨mac, rfl⟩
      | error defect =>
        rw [spelled] at read
        cases read
    · intro reads
      obtain ⟨mac, spelled⟩ := reads text given
      rw [spelled]
      exact ⟨_, mac, rfl, rfl⟩

theorem describes_of_ofSetting (h : ofSetting place s = .ok i) : s.Describes place i := by
  unfold ofSetting at h
  cases given : s.mac with
  | none =>
    rw [given] at h
    cases h
    exact ⟨⟨rfl, fun _ some => (nomatch given.symm.trans some), fun _ => rfl⟩, rfl, rfl, rfl, rfl, rfl⟩
  | some text =>
    rw [given] at h
    obtain ⟨mac, read, made⟩ := bind_eq_ok_iff.1 h
    have spelled : Mac.ofText text = .ok mac := by
      unfold Mac.parse at read
      split at read
      · next m ofText =>
        cases read
        exact ofText
      · cases read
    cases made
    refine ⟨⟨rfl, fun text' h => ?_, fun none => (nomatch given.symm.trans none)⟩, rfl, rfl, rfl, rfl, rfl⟩
    cases given.symm.trans h
    exact spelled

/-- Settings come to a table behind another when they can be put behind its names and ids. -/
theorem insertAll_ok_iff :
    (∃ t', t.insertAll place settings = .ok t') ↔
      Admissible (t.interfaces.values.map (·.name)) (t.interfaces.values.map (·.id)) place settings := by
  induction settings generalizing t place with
  | nil => exact ⟨fun _ => admissible_nil, fun _ => ⟨t, rfl⟩⟩
  | cons s settings ih =>
    simp only [insertAll, bind_eq_ok_iff]
    rw [admissible_cons]
    constructor
    · rintro ⟨t', i, made, mid, inserted, rest⟩
      have described := describes_of_ofSetting made
      obtain ⟨name, id⟩ := insert_ok_iff.1 ⟨mid, inserted⟩
      have others := ih.1 ⟨t', rest⟩
      rw [values_insert inserted] at others
      rw [← described.name, ← described.id]
      refine ⟨name, id, ofSetting_ok_iff.1 ⟨i, made⟩, others.congr (fun n => ?_) fun n => ?_⟩
      · simp [or_comm]
      · simp [or_comm]
    · rintro ⟨name, id, mac, others⟩
      obtain ⟨i, made⟩ := ofSetting_ok_iff.2 mac
      have described := describes_of_ofSetting made
      rw [← described.name] at name others
      rw [← described.id] at id others
      obtain ⟨mid, inserted⟩ := insert_ok_iff.2 ⟨name, id⟩
      have behind : Admissible (mid.interfaces.values.map (·.name)) (mid.interfaces.values.map (·.id))
          (place + 1) settings := by
        rw [values_insert inserted]
        refine others.congr (fun n => ?_) fun n => ?_
        · simp [or_comm]
        · simp [or_comm]
      obtain ⟨t', rest⟩ := ih.2 behind
      exact ⟨t', i, made, mid, inserted, rest⟩

/-- Behind the interfaces that were there stand those that the settings describe, in their
order. -/
theorem insertAll_describes (h : t.insertAll place settings = .ok t') :
    ∃ added, t'.interfaces.values = t.interfaces.values ++ added ∧
      List.Forall₂ (fun x i => x.1.Describes x.2 i) (settings.zipIdx place) added := by
  induction settings generalizing t place with
  | nil =>
    cases h
    exact ⟨[], (List.append_nil _).symm, .nil⟩
  | cons s settings ih =>
    obtain ⟨i, made, h⟩ := bind_eq_ok_iff.1 h
    obtain ⟨mid, inserted, h⟩ := bind_eq_ok_iff.1 h
    obtain ⟨added, values, described⟩ := ih h
    refine ⟨i :: added, ?_, .cons (describes_of_ofSetting made) described⟩
    rw [values, values_insert inserted, List.append_assoc]
    rfl

/-- Settings come to a table when they are admissible by themselves. -/
theorem ofSettings_ok_iff : (∃ t, ofSettings settings = .ok t) ↔ Admissible [] [] 0 settings := insertAll_ok_iff

/-- The table holds what the settings describe. -/
theorem ofSettings_describes (h : ofSettings settings = .ok t) :
    List.Forall₂ (fun x i => x.1.Describes x.2 i) settings.zipIdx t.interfaces.values := by
  obtain ⟨added, values, described⟩ := insertAll_describes h
  rw [values]
  exact described

end InterfaceTable

end ControlPlane
