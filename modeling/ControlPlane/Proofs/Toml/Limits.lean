/-
Every integer of a document is within the limits, in whatever value it stands.

A number is checked when it is read, and nothing that is done with values afterwards
makes another one: not the tables of a document in the making (`Node.within_bounded`),
not the values that they amount to in the end (`Node.bounded_toValue`).
-/
import ControlPlane.Toml.Document
import Mathlib.Tactic.SplitIfs

namespace ControlPlane.Toml

/-- All integers of a value are within the limits. -/
inductive Value.Bounded : Value → Prop where
  | string (text : String) : Bounded (.string text)
  | integer {n : Int} (least : minInteger ≤ n) (most : n ≤ maxInteger) : Bounded (.integer n)
  | boolean (b : Bool) : Bounded (.boolean b)
  | float (text : String) : Bounded (.float text)
  | instant (text : String) : Bounded (.instant text)
  | array {items : List Value} (each : ∀ v ∈ items, Bounded v) : Bounded (.array items)
  | table {entries : List (String × Value)} (each : ∀ e ∈ entries, Bounded e.2) : Bounded (.table entries)

/-- All integers in what a key stands for are within the limits. -/
inductive Node.Bounded : Node → Prop where
  | value {v : Value} (h : v.Bounded) : Bounded (.value v)
  | table {form : Form} {es : List (String × Node)} (each : ∀ e ∈ es, Bounded e.2) : Bounded (.table form es)
  | tables {ts : List (List (String × Node))} (each : ∀ es ∈ ts, ∀ e ∈ es, Bounded e.2) : Bounded (.tables ts)

/-- What holds at the start, and is kept by every step, holds in the end. -/
theorem of_foldlM {α β : Type} {P : β → Prop} {f : β → α → Option β} {l : List α} {b b' : β}
    (step : ∀ a ∈ l, ∀ b b', P b → f b a = some b' → P b') (start : P b) (h : l.foldlM f b = some b') : P b' := by
  induction l generalizing b with
  | nil =>
    cases h
    exact start
  | cons a l ih =>
    rw [List.foldlM_cons] at h
    obtain ⟨c, first, others⟩ := Option.bind_eq_some_iff.1 h
    exact ih (fun a ha => step a (by simp [ha])) (step a (by simp) b c start first) others

namespace Node

/-! ## Documents in the making -/

/-- All integers in some entries are within the limits. -/
def EntriesBounded (es : Entries) : Prop := ∀ e ∈ es, e.2.Bounded

variable {es es' : Entries} {v : Value} {k : String} {path : List String} {form : Form}

theorem entriesBounded_nil : EntriesBounded [] := List.forall_mem_nil _

theorem alter_bounded {f : Option Node → Option Node}
    (step : ∀ o n, (∀ m ∈ o, m.Bounded) → f o = some n → n.Bounded) (h : EntriesBounded es)
    (changed : alter k f es = some es') : EntriesBounded es' := by
  induction es generalizing es' with
  | nil =>
    obtain ⟨n, made, rfl⟩ := Option.map_eq_some_iff.1 changed
    exact List.forall_mem_singleton.2 (step none n (fun _ h => by cases h) made)
  | cons e es ih =>
    obtain ⟨k', n⟩ := e
    obtain ⟨first, others⟩ := List.forall_mem_cons.1 h
    rw [alter] at changed
    split at changed
    · obtain ⟨n', made, rfl⟩ := Option.map_eq_some_iff.1 changed
      refine List.forall_mem_cons.2 ⟨step (some n) n' (fun m hm => ?_) made, others⟩
      cases hm
      exact first
    · obtain ⟨es'', made, rfl⟩ := Option.map_eq_some_iff.1 changed
      exact List.forall_mem_cons.2 ⟨first, ih others made⟩

theorem changeLast_bounded {f : Entries → Option Entries}
    (step : ∀ es es', EntriesBounded es → f es = some es' → EntriesBounded es') {ts ts' : List Entries}
    (h : ∀ es ∈ ts, EntriesBounded es) (changed : changeLast f ts = some ts') : ∀ es ∈ ts', EntriesBounded es := by
  induction ts generalizing ts' with
  | nil => cases changed
  | cons es ts ih =>
    obtain ⟨first, others⟩ := List.forall_mem_cons.1 h
    cases ts with
    | nil =>
      obtain ⟨es', made, rfl⟩ := Option.map_eq_some_iff.1 changed
      exact List.forall_mem_singleton.2 (step es es' first made)
    | cons es₂ ts =>
      obtain ⟨ts'', made, rfl⟩ := Option.map_eq_some_iff.1 changed
      exact List.forall_mem_cons.2 ⟨first, ih others made⟩

theorem within_bounded {dotted : Bool} {change : Form → Entries → Option Entries}
    (step : ∀ form es es', EntriesBounded es → change form es = some es' → EntriesBounded es')
    (h : EntriesBounded es) (changed : within dotted change path form es = some es') : EntriesBounded es' := by
  induction path generalizing form es es' with
  | nil => exact step form es es' h changed
  | cons k path ih =>
    rw [within] at changed
    refine alter_bounded (fun o n held made => ?_) h changed
    split at made
    · obtain ⟨es'', inner, rfl⟩ := Option.map_eq_some_iff.1 made
      exact .table (ih entriesBounded_nil inner)
    · cases made
    · split at made
      · cases made
      · obtain ⟨es'', inner, rfl⟩ := Option.map_eq_some_iff.1 made
        cases held _ rfl with
        | table each => exact .table (ih each inner)
    · obtain ⟨ts', inner, rfl⟩ := Option.map_eq_some_iff.1 made
      cases held _ rfl with
      | tables each => exact .tables (changeLast_bounded (fun es es' h made => ih h made) each inner)

theorem assign_bounded (value : v.Bounded) (h : EntriesBounded es) (changed : assign path k v es = some es') :
    EntriesBounded es' := by
  refine within_bounded (fun form es es' h made => ?_) h changed
  split at made
  · refine alter_bounded (fun o n _ made => ?_) h made
    split at made
    · cases made
      exact .value value
    · cases made
  · cases made

theorem openTable_bounded (h : EntriesBounded es) (changed : openTable path k es = some es') : EntriesBounded es' := by
  refine within_bounded (fun form es es' h made => alter_bounded (fun o n held made => ?_) h made) h changed
  split at made
  · cases made
    exact .table entriesBounded_nil
  · cases made
    cases held _ rfl with
    | table each => exact .table each
  · cases made

theorem addElement_bounded (h : EntriesBounded es) (changed : addElement path k es = some es') :
    EntriesBounded es' := by
  refine within_bounded (fun form es es' h made => alter_bounded (fun o n held made => ?_) h made) h changed
  split at made
  · cases made
    exact .tables (List.forall_mem_singleton.2 entriesBounded_nil)
  · cases made
    cases held _ rfl with
    | tables each => exact .tables (List.forall_mem_append.2 ⟨each, List.forall_mem_singleton.2 entriesBounded_nil⟩)
  · cases made

mutual

theorem bounded_toValue : {n : Node} → n.Bounded → n.toValue.Bounded
  | .value _, .value h => h
  | .table _ _, .table each => .table (bounded_valuesOf each)
  | .tables _, .tables each => .array (bounded_tablesOf each)

theorem bounded_valuesOf : {es : Entries} → EntriesBounded es → ∀ e ∈ valuesOf es, e.2.Bounded
  | [], _ => List.forall_mem_nil _
  | (_, _) :: _, h =>
    have ⟨first, others⟩ := List.forall_mem_cons.1 h
    List.forall_mem_cons.2 ⟨bounded_toValue first, bounded_valuesOf others⟩

theorem bounded_tablesOf : {ts : List Entries} → (∀ es ∈ ts, EntriesBounded es) → ∀ v ∈ tablesOf ts, v.Bounded
  | [], _ => List.forall_mem_nil _
  | _ :: _, h =>
    have ⟨first, others⟩ := List.forall_mem_cons.1 h
    List.forall_mem_cons.2 ⟨.table (bounded_valuesOf first), bounded_tablesOf others⟩

end

end Node

/-! ## Reading -/

section Reading

variable {cs rest : List Char} {v : Value}

theorem Bare.bounded_of_ofRun (h : ofRun cs = some v) : v.Bounded := by
  rw [ofRun] at h
  split_ifs at h
  · cases h
    exact .boolean true
  · cases h
    exact .boolean false
  · cases h
    exact .instant _
  · cases h
    exact .float _
  · obtain ⟨n, number, rfl⟩ := Option.map_eq_some_iff.1 h
    have limits := (Option.filter_eq_some_iff.1 number).2
    simp only [Bool.and_eq_true, decide_eq_true_eq] at limits
    exact .integer limits.1 limits.2

theorem Bare.bounded_of_read (h : Bare.read cs = some (v, rest)) : v.Bounded := by
  obtain ⟨w, spelled, same⟩ := Option.map_eq_some_iff.1 h
  exact (Prod.mk.inj same).1 ▸ Bare.bounded_of_ofRun spelled

namespace Statement

variable {item : List Char → Option (Value × List Char)} {most depth : Nat}

theorem bounded_of_readItems (each : ∀ cs v rest, item cs = some (v, rest) → v.Bounded) {vs : List Value}
    (h : readItems item most cs = some (vs, rest)) : ∀ v ∈ vs, v.Bounded := by
  induction most generalizing cs vs rest with
  | zero => cases h
  | succ most ih =>
    rw [readItems] at h
    split at h
    · cases h
      exact List.forall_mem_nil _
    · obtain ⟨⟨v, behind⟩, first, others⟩ := Option.bind_eq_some_iff.1 h
      have bounded := each _ _ _ first
      dsimp only at others
      split at others
      · cases others
        exact List.forall_mem_singleton.2 bounded
      · obtain ⟨⟨vs', behind'⟩, more, same⟩ := Option.bind_eq_some_iff.1 others
        cases same
        exact List.forall_mem_cons.2 ⟨bounded, ih more⟩
      · cases others

theorem bounded_of_readSettings (each : ∀ cs v rest, item cs = some (v, rest) → v.Bounded)
    {settings : List (Path × Value)} (h : readSettings item most cs = some (settings, rest)) :
    ∀ s ∈ settings, s.2.Bounded := by
  induction most generalizing cs settings rest with
  | zero => cases h
  | succ most ih =>
    rw [readSettings] at h
    obtain ⟨⟨p, _⟩, _, h⟩ := Option.bind_eq_some_iff.1 h
    obtain ⟨_, _, h⟩ := Option.bind_eq_some_iff.1 h
    obtain ⟨⟨v, _⟩, first, others⟩ := Option.bind_eq_some_iff.1 h
    have bounded := each _ _ _ first
    dsimp only at others
    split at others
    · cases others
      exact List.forall_mem_singleton.2 bounded
    · obtain ⟨⟨_, _⟩, more, same⟩ := Option.bind_eq_some_iff.1 others
      cases same
      exact List.forall_mem_cons.2 ⟨bounded, ih more⟩
    · cases others

theorem bounded_of_tableOf {settings : List (Path × Value)} (each : ∀ s ∈ settings, s.2.Bounded)
    (h : tableOf settings = some v) : v.Bounded := by
  obtain ⟨es, made, rfl⟩ := Option.map_eq_some_iff.1 h
  exact .table (Node.bounded_valuesOf
    (of_foldlM (fun s hs _ _ => Node.assign_bounded (each s hs)) Node.entriesBounded_nil made))

/-- A value that is read is within the limits. -/
theorem bounded_of_readValue (h : readValue depth cs = some (v, rest)) : v.Bounded := by
  induction depth using Nat.strongRecOn generalizing cs v rest with
  | _ depth ih =>
    rw [readValue.eq_def] at h
    split at h
    · obtain ⟨⟨vs, _⟩, items, same⟩ := Option.bind_eq_some_iff.1 h
      cases same
      exact .array (bounded_of_readItems (fun _ _ _ => ih _ (Nat.lt_succ_self _)) items)
    · split at h
      · cases h
        exact .table (List.forall_mem_nil _)
      · obtain ⟨⟨settings, _⟩, read, h⟩ := Option.bind_eq_some_iff.1 h
        obtain ⟨w, made, same⟩ := Option.bind_eq_some_iff.1 h
        cases same
        exact bounded_of_tableOf (bounded_of_readSettings (fun _ _ _ => ih _ (Nat.lt_succ_self _)) read) made
    · obtain ⟨⟨s, _⟩, _, same⟩ := Option.map_eq_some_iff.1 h
      cases same
      exact .string s
    · obtain ⟨⟨s, _⟩, _, same⟩ := Option.map_eq_some_iff.1 h
      cases same
      exact .string s
    · exact Bare.bounded_of_read h

/-- A statement that sets no value beyond the limits. -/
def Bounded (s : Statement) : Prop := ∀ p v, s = .setting p v → v.Bounded

theorem bounded_of_read {s : Statement} (h : read cs = some (s, rest)) : s.Bounded := by
  rw [read.eq_def] at h
  split at h
  · obtain ⟨_, _, h⟩ := Option.bind_eq_some_iff.1 h
    obtain ⟨_, _, h⟩ := Option.bind_eq_some_iff.1 h
    obtain ⟨_, _, same⟩ := Option.bind_eq_some_iff.1 h
    cases same
    rintro p v ⟨⟩
  · obtain ⟨_, _, h⟩ := Option.bind_eq_some_iff.1 h
    obtain ⟨_, _, h⟩ := Option.bind_eq_some_iff.1 h
    obtain ⟨_, _, same⟩ := Option.bind_eq_some_iff.1 h
    cases same
    rintro p v ⟨⟩
  · obtain ⟨_, _, h⟩ := Option.bind_eq_some_iff.1 h
    obtain ⟨_, _, h⟩ := Option.bind_eq_some_iff.1 h
    obtain ⟨_, value, h⟩ := Option.bind_eq_some_iff.1 h
    obtain ⟨_, _, same⟩ := Option.bind_eq_some_iff.1 h
    cases same
    rintro p v ⟨⟩
    exact bounded_of_readValue value

theorem bounded_of_readAll {ss : List Statement} (h : readAll most cs = some ss) : ∀ s ∈ ss, s.Bounded := by
  induction most generalizing cs ss with
  | zero => cases h
  | succ most ih =>
    rw [readAll] at h
    dsimp only at h
    split at h
    · cases h
      exact List.forall_mem_nil _
    · split at h
      · exact ih h
      · obtain ⟨⟨s, _⟩, first, h⟩ := Option.bind_eq_some_iff.1 h
        obtain ⟨ss', others, same⟩ := Option.bind_eq_some_iff.1 h
        cases same
        exact List.forall_mem_cons.2 ⟨bounded_of_read first, ih others⟩

end Statement

end Reading

/-! ## Documents -/

namespace Document

theorem add_bounded {d d' : Draft} {s : Statement} (bounded : s.Bounded) (h : Node.EntriesBounded d.entries)
    (added : d.add s = some d') : Node.EntriesBounded d'.entries := by
  cases s with
  | table p =>
    obtain ⟨es, made, rfl⟩ := Option.map_eq_some_iff.1 added
    exact Node.openTable_bounded h made
  | element p =>
    obtain ⟨es, made, rfl⟩ := Option.map_eq_some_iff.1 added
    exact Node.addElement_bounded h made
  | setting p v =>
    obtain ⟨es, made, rfl⟩ := Option.map_eq_some_iff.1 added
    exact Node.within_bounded (fun _ _ _ h made => Node.assign_bounded (bounded p v rfl) h made) h made

/-- The integers of a document are within the limits. -/
theorem bounded_of_ofText {text : String} {entries : List (String × Value)} (h : ofText text = some entries) :
    ∀ e ∈ entries, e.2.Bounded := by
  obtain ⟨ss, read, made⟩ := Option.bind_eq_some_iff.1 h
  obtain ⟨d, built, rfl⟩ := Option.map_eq_some_iff.1 made
  have bounded := Statement.bounded_of_readAll read
  exact Node.bounded_valuesOf (of_foldlM (P := fun d => Node.EntriesBounded d.entries)
    (fun s hs _ _ => add_bounded (bounded s hs)) Node.entriesBounded_nil built)

end Document

end ControlPlane.Toml
