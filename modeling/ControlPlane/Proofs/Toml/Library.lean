/-
What a library is relied on for.

A document of sections (`Sectioned`) has plain values, tables of such, and tables of this kind
under one key. A library is faithful if it writes every document of sections, reads it as it
was but for the order of keys (`Value.Same`), and reads no integer beyond the limits. The
library that the program uses is (`Library.faithful_standard`).
-/
import ControlPlane.Proofs.Toml.Limits
import ControlPlane.Proofs.Toml.Sections
import ControlPlane.Proofs.Toml.Statement
import ControlPlane.Toml.Library
import Mathlib.Data.List.Nodup

namespace ControlPlane.Toml

/-- Values that differ at most in the order of keys. -/
inductive Value.Same : Value → Value → Prop where
  | refl (v : Value) : Same v v
  | array {vs ws : List Value} (each : List.Forall₂ Same vs ws) : Same (.array vs) (.array ws)
  | table {es fs : List (String × Value)} (each : ∀ k, Option.Rel Same (es.lookup k) (fs.lookup k)) :
      Same (.table es) (.table fs)

/-- Settings under different keys that need no quotes, each with a plain value. -/
structure Flat (kvs : List (String × Value)) : Prop where
  different : (kvs.map Prod.fst).Nodup
  plain : ∀ e ∈ kvs, Statement.IsBare e.1 ∧ e.2.Plain

/-- What a key of a document of sections stands for. -/
inductive Value.Sectional : Value → Prop where
  | plain {v : Value} (h : v.Plain) : Sectional v
  | table {kvs : List (String × Value)} (h : Flat kvs) : Sectional (.table kvs)
  | tables {tables : List (List (String × Value))} (filled : tables ≠ []) (h : ∀ kvs ∈ tables, Flat kvs) :
      Sectional (.array (tables.map .table))

/-- The root table of a document of sections, under different keys that need no quotes. -/
structure Sectioned (es : List (String × Value)) : Prop where
  different : (es.map Prod.fst).Nodup
  parts : ∀ e ∈ es, Statement.IsBare e.1 ∧ e.2.Sectional

/-- What is relied on: a document of sections is written and read again, and integers have 64
bits. -/
structure Library.Faithful (library : Library) : Prop where
  written : ∀ es, Sectioned es → ∃ text fs, library.write es = some text ∧ library.read text = some fs ∧
    Value.Same (.table es) (.table fs)
  bounded : ∀ text es, library.read text = some es → ∀ e ∈ es, e.2.Bounded

/-! ## Order of keys -/

theorem Value.Same.lookup {es fs : List (String × Value)} (h : Same (.table es) (.table fs)) (k : String) :
    Option.Rel Same (es.lookup k) (fs.lookup k) := by
  cases h with
  | refl =>
    cases es.lookup k with
    | none => exact .none
    | some v => exact .some (.refl v)
  | table each => exact each k

/-- What a key stands for does not hang on the order, if keys do not repeat. -/
theorem lookup_eq_of_perm {es fs : List (String × Value)} (h : es.Perm fs) (different : (es.map Prod.fst).Nodup)
    (k : String) : es.lookup k = fs.lookup k := by
  induction h with
  | nil => rfl
  | cons e _ ih =>
    rw [List.lookup_cons, List.lookup_cons, ih (List.nodup_cons.1 different).2]
  | swap e f es =>
    obtain ⟨k₁, v₁⟩ := e
    obtain ⟨k₂, v₂⟩ := f
    have other : k₁ ≠ k₂ := fun same => (List.nodup_cons.1 different).1 (by simp [same])
    simp only [List.lookup_cons]
    by_cases first : k = k₁
    · simp [first, beq_false_of_ne other]
    · simp [beq_false_of_ne first]
  | trans first _ ih ih' =>
    rw [ih different, ih' ((first.map Prod.fst).nodup_iff.1 different)]

theorem same_of_perm {es fs : List (String × Value)} (h : es.Perm fs) (different : (es.map Prod.fst).Nodup) :
    Value.Same (.table es) (.table fs) := by
  refine .table fun k => ?_
  rw [lookup_eq_of_perm h different]
  exact (Value.Same.refl (.table fs)).lookup k

namespace Document

variable {es : List (String × Value)} {ns : Node.Entries} {k : String} {v : Value}
  {tables : List (List (String × Value))}

/-! ## What gets headers -/

theorem sections?_plain (h : v.Plain) : sections? (k, v) = none := by
  cases h <;> rfl

theorem tables?_map (tables : List (List (String × Value))) : tables? (tables.map .table) = some tables := by
  induction tables with
  | nil => rfl
  | cons kvs tables ih => rw [List.map_cons, tables?, ih, Option.map_some]

theorem sections?_tables (filled : tables ≠ []) :
    sections? (k, .array (tables.map .table)) = some (tables.flatMap (listed k)) := by
  obtain ⟨kvs, tables, rfl⟩ := List.exists_cons_of_ne_nil filled
  have all := tables?_map (kvs :: tables)
  rw [List.map_cons] at all ⊢
  rw [sections?, all, Option.map_some]

/-! ## Its lines -/

theorem plain_settings {kvs : List (String × Value)} (h : ∀ e ∈ kvs, Statement.IsBare e.1 ∧ e.2.Plain) :
    ∀ s ∈ settings kvs, s.Plain := by
  intro s hs
  obtain ⟨e, he, rfl⟩ := List.mem_map.1 hs
  exact .setting (h e he).1 (h e he).2

/-- All statements of a document of sections are plain. -/
theorem plain_statements (h : Sectioned es) : ∀ s ∈ statements es, s.Plain := by
  refine List.forall_mem_append.2 ⟨plain_settings fun e he => ?_, fun s hs => ?_⟩
  · obtain ⟨inside, none⟩ := List.mem_filter.1 he
    obtain ⟨key, part⟩ := h.parts e inside
    obtain ⟨k, v⟩ := e
    cases part with
    | plain plain => exact ⟨key, plain⟩
    | table => cases none
    | tables filled =>
      rw [sections?_tables filled] at none
      cases none
  · obtain ⟨ss, made, hs⟩ := List.mem_flatten.1 hs
    obtain ⟨e, he, made⟩ := List.mem_filterMap.1 made
    obtain ⟨key, part⟩ := h.parts e he
    obtain ⟨k, v⟩ := e
    cases part with
    | plain plain =>
      rw [sections?_plain plain] at made
      cases made
    | table flat =>
      cases made
      exact List.forall_mem_cons.2 ⟨.table key, plain_settings flat.plain⟩ s hs
    | tables filled flat =>
      rw [sections?_tables filled] at made
      cases made
      obtain ⟨kvs, hk, hs⟩ := List.mem_flatMap.1 hs
      exact List.forall_mem_cons.2 ⟨.element key, plain_settings (flat kvs hk).plain⟩ s hs

/-! ## Its tables -/

/-- What gets headers is there in the end, one behind another. -/
theorem foldlM_parts (sectional : ∀ e ∈ es, e.2.Sectional) (different : (es.map Prod.fst).Nodup)
    (new : ∀ e ∈ es, (sections? e).isSome → ∀ n ∈ ns, n.1 ≠ e.1) (here : List String) : ∃ nodes there,
    (es.filterMap sections?).flatten.foldlM Draft.add ⟨ns, here⟩ = some ⟨ns ++ nodes, there⟩ ∧
      Node.valuesOf nodes = es.filter fun e => (sections? e).isSome := by
  induction es generalizing ns here with
  | nil => exact ⟨[], here, by simp, rfl⟩
  | cons e es ih =>
    obtain ⟨first, others⟩ := List.forall_mem_cons.1 sectional
    obtain ⟨alone, rest⟩ := List.nodup_cons.1 different
    -- an entry that gets headers makes one node; the others see it under a key of its own
    have step {node : Node} {there : List String} {ss : List Statement} (made : sections? e = some ss)
        (added : ss.foldlM Draft.add ⟨ns, here⟩ = some ⟨ns ++ [(e.1, node)], there⟩)
        (value : node.toValue = e.2) :
        ∃ nodes there, ((e :: es).filterMap sections?).flatten.foldlM Draft.add ⟨ns, here⟩ =
            some ⟨ns ++ nodes, there⟩ ∧
          Node.valuesOf nodes = (e :: es).filter fun e => (sections? e).isSome := by
      obtain ⟨nodes, there', more, values⟩ := @ih (ns ++ [(e.1, node)]) others rest
        (fun f hf headed n hn => by
          rcases List.mem_append.1 hn with before | last
          · exact new f (List.mem_cons_of_mem _ hf) headed n before
          · cases List.mem_singleton.1 last
            exact fun same => alone (same ▸ List.mem_map_of_mem hf)) there
      refine ⟨(e.1, node) :: nodes, there', ?_, ?_⟩
      · rw [List.filterMap_cons_some made, List.flatten_cons, List.foldlM_append, added]
        simpa using more
      · rw [Node.valuesOf, value, values, List.filter_cons_of_pos (by rw [made]; rfl)]
    obtain ⟨k, v⟩ := e
    cases first with
    | plain plain =>
      have none : sections? (k, v) = none := sections?_plain plain
      rw [List.filterMap_cons_none none, List.filter_cons_of_neg (by rw [none]; exact Bool.false_ne_true)]
      exact ih others rest (fun f hf => new f (List.mem_cons_of_mem _ hf)) here
    | table flat =>
      have fresh := new _ List.mem_cons_self rfl
      exact step rfl (foldlM_headed fresh flat.different here) (by rw [Node.toValue, valuesOf_valued])
    | tables filled flat =>
      have made : sections? (k, _) = some _ := sections?_tables filled
      have fresh := new _ List.mem_cons_self (by rw [made]; rfl)
      exact step made (foldlM_tables fresh here filled fun kvs hk => (flat kvs hk).different)
        (by rw [Node.toValue, tablesOf_map_valued])

/-- The statements of a document of sections amount to its entries, settings first. -/
theorem ofStatements_statements (h : Sectioned es) : ofStatements (statements es) =
    some ((es.filter fun e => (sections? e).isNone) ++ es.filter fun e => (sections? e).isSome) := by
  have atRoot : ((es.filter fun e => (sections? e).isNone).map Prod.fst).Nodup :=
    h.different.sublist (List.filter_sublist.map _)
  have root := foldlM_settings extends_root atRoot
  have new : ∀ e ∈ es, (sections? e).isSome →
      ∀ n ∈ valued (es.filter fun e => (sections? e).isNone), n.1 ≠ e.1 := by
    intro e he some n hn same
    obtain ⟨f, hf, rfl⟩ := List.mem_map.1 hn
    obtain ⟨inside, none⟩ := List.mem_filter.1 hf
    obtain rfl : f = e := List.inj_on_of_nodup_map h.different inside he same
    rw [Option.isNone_iff_eq_none.1 none] at some
    cases some
  obtain ⟨nodes, there, parts, values⟩ := foldlM_parts (fun e he => (h.parts e he).2) h.different new []
  have all : (statements es).foldlM Draft.add Draft.empty =
      some ⟨valued (es.filter fun e => (sections? e).isNone) ++ nodes, there⟩ := by
    rw [statements, List.foldlM_append]
    exact (congrArg (· >>= _) root).trans parts
  rw [ofStatements, all, Option.map_some, valuesOf_append, valuesOf_valued, values]

end Document

/-! ## Main result -/

open Document in
/-- The library that the program uses is faithful. -/
theorem Library.faithful_standard : standard.Faithful where
  written := by
    intro es h
    have read : ofText (toText es) =
        some ((es.filter fun e => (sections? e).isNone) ++ es.filter fun e => (sections? e).isSome) := by
      rw [ofText, toText, Statement.ofText_text (plain_statements h), Option.bind_some, ofStatements_statements h]
    have rest : (es.filter fun e => (sections? e).isSome) = es.filter fun e => !(sections? e).isNone :=
      List.filter_congr fun e _ => by rw [Option.not_isNone]
    refine ⟨toText es, _, rfl, read, same_of_perm ?_ h.different⟩
    rw [rest]
    exact (List.filter_append_perm _ es).symm
  bounded := fun _ _ => bounded_of_ofText

end ControlPlane.Toml
