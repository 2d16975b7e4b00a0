/-
Configurations that an engine can be built from.

The validation goes over the settings of the interfaces and remembers which names and ids it has seen;
the table of an engine takes the interfaces one by one and looks into itself. Both come to one property of
the settings, that they are admissible, which each of them meets at the first of the settings and then at
the others (`interfaceFaults_blocks_iff`, `InterfaceTable.insertAll_ok_iff`). So three kinds of faults are
those that keep an engine from being built, and the other ones are not (`built_iff_valid`).
-/
import ControlPlane.Config.Validation
import ControlPlane.Proofs.Engine.Change
import ControlPlane.Proofs.Interfaces.Table

namespace ControlPlane

open InterfaceSettings

namespace Config

/-! ## What validation finds -/

/-- Whether a fault is one of the three that an engine cannot be built with. -/
def Fault.blocks : Fault → Bool
  | duplicateName _ | duplicateId .. | invalidMac .. => true
  | noCommandTimeout | noIdleTimeout _ | emptyName _ | longName _ | multicastMac .. => false

theorem forall_mem_whenever {α : Type} {p : α → Prop} {b : Bool} {a : α} :
    (∀ x ∈ whenever b a, p x) ↔ (b = true → p a) := by
  cases b <;> simp [whenever]

theorem nameFaults_blocks {place : Nat} {name : String} : ∀ f ∈ nameFaults place name, f.blocks = false := by
  unfold nameFaults
  split
  · simp [Fault.blocks]
  · exact forall_mem_whenever.2 fun _ => rfl

theorem macFaults_blocks_iff {s : InterfaceSettings} :
    (∀ f ∈ macFaults s.name s.mac, f.blocks = false) ↔ s.MacReads := by
  unfold MacReads
  cases given : s.mac with
  | none => simp [macFaults]
  | some text =>
    simp only [macFaults, Option.some.injEq, forall_eq']
    cases read : Mac.ofText text with
    | ok mac => exact iff_of_true (forall_mem_whenever.2 fun _ => rfl) ⟨mac, rfl⟩
    | error _ => simp [Fault.blocks]

/-- None of the three is found just when the settings are admissible. -/
theorem interfaceFaults_blocks_iff {names : List String} {ids : List UInt32} {place : Nat}
    {settings : List InterfaceSettings} :
    (∀ f ∈ interfaceFaults names ids place settings, f.blocks = false) ↔
      Admissible names ids place settings := by
  induction settings generalizing names ids place with
  | nil => exact iff_of_true (fun _ h => nomatch h) admissible_nil
  | cons s settings ih =>
    simp only [interfaceFaults, List.forall_mem_append, forall_mem_whenever, macFaults_blocks_iff, ih,
      iff_true_intro (@nameFaults_blocks place s.name), true_and, List.contains_iff_mem]
    rw [admissible_cons, and_assoc, and_assoc]
    simp only [Fault.blocks, Bool.true_eq_false]

/-! ## What an engine is built from -/

/-- Settings of interfaces that are told apart by their names and by their ids, and whose hardware addresses
can be read. -/
structure Consistent (c : Config) : Prop where
  names : (c.interfaces.map (·.name)).Nodup
  ids : (effectiveIds 0 c.interfaces).Nodup
  macs : ∀ s ∈ c.interfaces, s.MacReads

theorem consistent_iff {c : Config} : c.Consistent ↔ Admissible [] [] 0 c.interfaces :=
  ⟨fun ⟨names, ids, macs⟩ => ⟨names, fun _ _ h => (nomatch h), ids, fun _ _ h => (nomatch h), macs⟩,
    fun h => ⟨h.names_nodup, h.ids_nodup, h.macs⟩⟩

theorem errors_blocks_iff {c : Config} : (∀ f ∈ c.validate.errors, f.blocks = false) ↔ c.Consistent := by
  simp only [validate, faults, List.forall_mem_append, forall_mem_whenever, interfaceFaults_blocks_iff, consistent_iff]
  simp [Fault.blocks]

end Config

namespace Engine

/-- An engine can be built when its interfaces can. -/
theorem ofConfig_ok_iff {c : Config} : (∃ e, ofConfig c = .ok e) ↔ c.Consistent := by
  rw [Config.consistent_iff, ← InterfaceTable.ofSettings_ok_iff]
  constructor
  · rintro ⟨e, made⟩
    obtain ⟨interfaces, made, -⟩ := ofConfig_eq_ok made
    exact ⟨interfaces, made⟩
  · rintro ⟨interfaces, made⟩
    exact ⟨_, bind_eq_ok_iff.2 ⟨interfaces, made, rfl⟩⟩

/-- **The validation and the engine agree.** A configuration comes to an engine just when the names of its
interfaces are distinct, so are their ids, with the place in the list for one that is not given, and every
hardware address that is given can be read; and that is just when the validation finds no name twice, no
id twice and no address that cannot be read. So what the validation accepts can be built. The engine has the
interfaces as the settings describe them, in their order, and looking for a name or an id finds the one that
has it. -/
theorem built_iff_valid (c : Config) :
    ((∃ e, ofConfig c = .ok e) ↔ c.Consistent) ∧
      ((∃ e, ofConfig c = .ok e) ↔ ∀ f ∈ c.validate.errors, f.blocks = false) ∧
      (c.validate.hasErrors = false → ∃ e, ofConfig c = .ok e) ∧
      ∀ e, ofConfig c = .ok e →
        List.Forall₂ (fun x i => x.1.Describes x.2 i) c.interfaces.zipIdx e.interfaces.interfaces.values ∧
          (∀ name i, e.interfaces.resolve? name = some i ↔ i ∈ e.interfaces.interfaces.values ∧ i.name = name) ∧
          ∀ id i, e.interfaces.getById? id = some i ↔ i ∈ e.interfaces.interfaces.values ∧ i.id = id := by
  refine ⟨ofConfig_ok_iff, ofConfig_ok_iff.trans Config.errors_blocks_iff.symm, fun accepted => ?_, fun e made => ?_⟩
  · have none : c.validate.errors = [] := by simpa [Config.Diagnosis.hasErrors] using accepted
    refine ofConfig_ok_iff.2 (Config.errors_blocks_iff.1 ?_)
    rw [none]
    exact fun _ h => nomatch h
  · have consistent := ofConfig_ok_iff.1 ⟨e, made⟩
    obtain ⟨interfaces, taken, rfl⟩ := ofConfig_eq_ok made
    have described := InterfaceTable.ofSettings_describes taken
    have ids : (interfaces.interfaces.values.map (·.id)).Nodup := by
      rw [map_id_of_describes described]
      exact consistent.ids
    exact ⟨described, fun _ _ => InterfaceTable.resolve?_eq_some_iff,
      fun _ _ => InterfaceTable.getById?_eq_some_iff ids⟩

namespace Small

/-- The second interface has the place of the first for its id, and an address. -/
def swapped : Config :=
  { Config.standard with
    interfaces :=
      [{ InterfaceSettings.named "eth0" with id := some 1 },
        { InterfaceSettings.named "eth1" with id := some 0, mac := some "02:00:00:00:00:aa" }] }

/-- The id of the first is the place of the second, which has none of its own. -/
def colliding : Config :=
  { Config.standard with interfaces := [{ InterfaceSettings.named "eth0" with id := some 1 }, .named "eth1"] }

end Small

theorem built_iff_valid_small :
    (Small.swapped.validate.hasErrors = false ∧
        ∃ e i j, ofConfig Small.swapped = .ok e ∧ e.interfaces.interfaces.values = [i, j] ∧
          e.interfaces.getById? 1 = some i ∧ i.name = "eth0" ∧ i.mac.octets = [2, 0, 0, 0, 0, 1] ∧
          e.interfaces.resolve? "eth1" = some j ∧ j.id = 0 ∧ j.mac.octets = [2, 0, 0, 0, 0, 0xAA]) ∧
      Small.colliding.validate.errors = [.duplicateId "eth1" 1] ∧ ¬ ∃ e, ofConfig Small.colliding = .ok e := by
  refine ⟨?_, ?_⟩
  · have accepted : Small.swapped.validate.hasErrors = false := by decide +kernel
    obtain ⟨-, -, accepts, has⟩ := built_iff_valid Small.swapped
    obtain ⟨e, made⟩ := accepts accepted
    obtain ⟨described, resolve, byId⟩ := has e made
    obtain ⟨i, _, first, rest, values⟩ := List.forall₂_cons_left_iff.1 described
    obtain ⟨j, _, second, none, rfl⟩ := List.forall₂_cons_left_iff.1 rest
    cases none
    refine ⟨accepted, e, i, j, made, values, (byId 1 i).2 ⟨?_, first.id⟩, first.name, ?_,
      (resolve _ j).2 ⟨?_, second.name⟩, second.id, ?_⟩
    · simp [values]
    · rw [first.derived rfl, first.id]
      rfl
    · simp [values]
    · have read : Mac.ofText "02:00:00:00:00:aa" = .ok (.ofBytes [2, 0, 0, 0, 0, 0xAA]) := by decide +kernel
      rw [← Except.ok.inj (read.symm.trans (second.given _ rfl))]
      rfl
  · obtain ⟨-, valid, -, -⟩ := built_iff_valid Small.colliding
    have errors : Small.colliding.validate.errors = [.duplicateId "eth1" 1] := by decide +kernel
    refine ⟨errors, fun built => ?_⟩
    have none := valid.1 built (.duplicateId "eth1" 1) (by simp [errors])
    cases none

end Engine

end ControlPlane
