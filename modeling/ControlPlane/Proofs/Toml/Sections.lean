/-
What headers and the settings behind them amount to.

A setting goes to the end of the table at hand (`Extends`), so settings of different
keys are all there in their order (`foldlM_settings`). A header makes one more table
(`foldlM_headed`), headers in double brackets make the tables of one key
(`foldlM_tables`).
-/
import ControlPlane.Toml.Document

namespace ControlPlane.Toml

variable {kvs : List (String × Value)} {ns : Node.Entries} {k t : String}

namespace Node

theorem alter_new {f : Option Node → Option Node} (new : ∀ e ∈ ns, e.1 ≠ k) :
    alter k f ns = (f none).map fun n => ns ++ [(k, n)] := by
  induction ns with
  | nil => rfl
  | cons e ns ih =>
    obtain ⟨k', n⟩ := e
    have other : k' ≠ k := new (k', n) (by simp)
    rw [alter, if_neg other, ih fun e he => new e (by simp [he])]
    cases f none <;> rfl

theorem alter_last {f : Option Node → Option Node} (new : ∀ e ∈ ns, e.1 ≠ k) (n : Node) :
    alter k f (ns ++ [(k, n)]) = (f (some n)).map fun n' => ns ++ [(k, n')] := by
  induction ns with
  | nil => simp [alter]
  | cons e ns ih =>
    obtain ⟨k', m⟩ := e
    have other : k' ≠ k := new (k', m) (by simp)
    rw [List.cons_append, alter, if_neg other, ih fun e he => new e (by simp [he])]
    cases f (some n) <;> rfl

theorem changeLast_concat (f : Entries → Option Entries) (ts : List Entries) (es : Entries) :
    changeLast f (ts ++ [es]) = (f es).map fun es' => ts ++ [es'] := by
  induction ts with
  | nil => rfl
  | cons t ts ih =>
    obtain ⟨u, us, more⟩ := List.exists_cons_of_ne_nil (l := ts ++ [es]) (by simp)
    rw [more] at ih
    rw [List.cons_append, more, changeLast, ih]
    · cases f es <;> rfl
    · simp

theorem assign_new (new : ∀ e ∈ ns, e.1 ≠ k) (v : Value) : assign [] k v ns = some (ns ++ [(k, .value v)]) := by
  simp [assign, within, alter_new new]

end Node

namespace Document

open Statement

/-- What settings leave in a table. -/
def valued (kvs : List (String × Value)) : Node.Entries := kvs.map fun e => (e.1, .value e.2)

/-- The documents in the making that differ in the table at hand only, to the end of which a setting of a new key
goes. -/
def Extends (put : Node.Entries → Draft) : Prop := ∀ ns k v, (∀ e ∈ ns, e.1 ≠ k) →
  (put ns).add (.setting (.ofKey k) v) = some (put (ns ++ [(k, .value v)]))

/-- Settings of different keys are all there in the end. -/
theorem foldlM_settings {put : Node.Entries → Draft} (h : Extends put) (different : (kvs.map Prod.fst).Nodup) :
    (settings kvs).foldlM Draft.add (put []) = some (put (valued kvs)) := by
  suffices from_some : ∀ done, ((done ++ kvs).map Prod.fst).Nodup →
      (settings kvs).foldlM Draft.add (put (valued done)) = some (put (valued (done ++ kvs))) from
    from_some [] different
  clear different
  induction kvs with
  | nil => simp [settings]
  | cons e kvs ih =>
    intro done different
    have new : ∀ n ∈ valued done, n.1 ≠ e.1 := by
      intro n hn
      obtain ⟨d, hd, rfl⟩ := List.mem_map.1 hn
      rw [List.map_append, List.nodup_append] at different
      exact different.2.2 d.1 (List.mem_map_of_mem hd) e.1 (by simp)
    have others := ih (done ++ [e]) (by simpa using different)
    simp only [settings, List.map_cons, List.foldlM_cons]
    rw [h _ _ _ new]
    simpa [valued, settings] using others

theorem extends_root : Extends fun ns => ⟨ns, []⟩ := by
  intro ns k v new
  simp [Draft.add, Path.ofKey, Node.within, Node.assign_new new]

theorem extends_table (new : ∀ e ∈ ns, e.1 ≠ t) (form : Form) :
    Extends fun here => ⟨ns ++ [(t, .table form here)], [t]⟩ := by
  intro here k v other
  simp [Draft.add, Path.ofKey, Node.within, Node.alter_last new, Node.assign_new other]

theorem extends_tables (new : ∀ e ∈ ns, e.1 ≠ t) (ts : List Node.Entries) :
    Extends fun here => ⟨ns ++ [(t, .tables (ts ++ [here]))], [t]⟩ := by
  intro here k v other
  simp [Draft.add, Path.ofKey, Node.within, Node.alter_last new, Node.changeLast_concat, Node.assign_new other]

/-- A header and settings make one more table. -/
theorem foldlM_headed (new : ∀ e ∈ ns, e.1 ≠ t) (different : (kvs.map Prod.fst).Nodup) (here : List String) :
    (headed t kvs).foldlM Draft.add ⟨ns, here⟩ = some ⟨ns ++ [(t, .table .explicit (valued kvs))], [t]⟩ := by
  have header : Draft.add ⟨ns, here⟩ (.table (.ofKey t)) = some ⟨ns ++ [(t, .table .explicit [])], [t]⟩ := by
    simp [Draft.add, Node.openTable, Path.ofKey, Path.keys, Node.within, Node.alter_new new]
  rw [headed, List.foldlM_cons, header]
  exact foldlM_settings (extends_table new .explicit) different

/-- A header in double brackets and settings make one more of the tables under a key. -/
theorem foldlM_element (new : ∀ e ∈ ns, e.1 ≠ t) (ts : List Node.Entries) (different : (kvs.map Prod.fst).Nodup) :
    (listed t kvs).foldlM Draft.add ⟨ns ++ [(t, .tables ts)], [t]⟩ =
      some ⟨ns ++ [(t, .tables (ts ++ [valued kvs]))], [t]⟩ := by
  have header : Draft.add ⟨ns ++ [(t, .tables ts)], [t]⟩ (.element (.ofKey t)) =
      some ⟨ns ++ [(t, .tables (ts ++ [[]]))], [t]⟩ := by
    simp [Draft.add, Node.addElement, Path.ofKey, Path.keys, Node.within, Node.alter_last new]
  rw [listed, List.foldlM_cons, header]
  exact foldlM_settings (extends_tables new ts) different

/-- The first header in double brackets makes the key. -/
theorem foldlM_first_element (new : ∀ e ∈ ns, e.1 ≠ t) (here : List String) (different : (kvs.map Prod.fst).Nodup) :
    (listed t kvs).foldlM Draft.add ⟨ns, here⟩ =
      some ⟨ns ++ [(t, .tables [valued kvs])], [t]⟩ := by
  have header : Draft.add ⟨ns, here⟩ (.element (.ofKey t)) = some ⟨ns ++ [(t, .tables [[]])], [t]⟩ := by
    simp [Draft.add, Node.addElement, Path.ofKey, Path.keys, Node.within, Node.alter_new new]
  rw [listed, List.foldlM_cons, header]
  exact foldlM_settings (extends_tables new []) different

/-- The tables under a key, one behind another. -/
theorem foldlM_elements (new : ∀ e ∈ ns, e.1 ≠ t) (ts : List Node.Entries) {tables : List (List (String × Value))}
    (different : ∀ kvs ∈ tables, (kvs.map Prod.fst).Nodup) :
    (tables.flatMap (listed t)).foldlM Draft.add ⟨ns ++ [(t, .tables ts)], [t]⟩ =
      some ⟨ns ++ [(t, .tables (ts ++ tables.map valued))], [t]⟩ := by
  induction tables generalizing ts with
  | nil => simp
  | cons kvs tables ih =>
    have others := ih (ts ++ [valued kvs]) fun kvs h => different kvs (by simp [h])
    rw [List.flatMap_cons, List.foldlM_append, foldlM_element new ts (different kvs (by simp))]
    simpa using others

/-- Headers in double brackets and settings make the tables of a new key. -/
theorem foldlM_tables (new : ∀ e ∈ ns, e.1 ≠ t) (here : List String) {tables : List (List (String × Value))}
    (filled : tables ≠ []) (different : ∀ kvs ∈ tables, (kvs.map Prod.fst).Nodup) :
    (tables.flatMap (listed t)).foldlM Draft.add ⟨ns, here⟩ =
      some ⟨ns ++ [(t, .tables (tables.map valued))], [t]⟩ := by
  obtain ⟨kvs, tables, rfl⟩ := List.exists_cons_of_ne_nil filled
  rw [List.flatMap_cons, List.foldlM_append, foldlM_first_element new here (different kvs (by simp))]
  exact foldlM_elements new [valued kvs] fun kvs h => different kvs (by simp [h])

/-! ## Values -/

@[simp] theorem valuesOf_append (ns ms : Node.Entries) :
    Node.valuesOf (ns ++ ms) = Node.valuesOf ns ++ Node.valuesOf ms := by
  induction ns with
  | nil => rfl
  | cons e ns ih => simp [Node.valuesOf, ih]

@[simp] theorem valuesOf_valued (kvs : List (String × Value)) : Node.valuesOf (valued kvs) = kvs := by
  induction kvs with
  | nil => rfl
  | cons e kvs ih =>
    rw [valued] at ih
    simp [valued, Node.valuesOf, Node.toValue, ih]

@[simp] theorem tablesOf_map_valued (tables : List (List (String × Value))) :
    Node.tablesOf (tables.map valued) = tables.map .table := by
  induction tables with
  | nil => rfl
  | cons kvs tables ih => simp [Node.tablesOf, ih]

end Document

end ControlPlane.Toml
