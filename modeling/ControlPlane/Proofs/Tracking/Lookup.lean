/-
Looking for a connection comes to the same as looking through all of them.

A record leads to a connection by an index that both directions share, so a key may lead
to a connection whose reply direction has it; then all connections are looked through.
Every operation on a table keeps its index exact (`exact_run`), so what is found is what
a plain search finds: the connection that forwards the orig direction under the key, or
else the oldest of those that have it for their orig key (`found_by_scan`).
-/
import ControlPlane.Proofs.Tracking.Addressing

namespace ControlPlane

theorem Wire.Connection.directions_eq_replyOnly_iff {c : Wire.Connection} :
    c.directions = .replyOnly ↔ c.forwards .orig = false := by
  cases h : c.directions <;> simp [forwards, Directions.hasOrig, h]

namespace ConnectionTable

variable {t : ConnectionTable} {k : FlowKey} {seq : Nat} {entry : Tracked}

/-! ## Operations -/

/-- What is done to a table. A connection that is tracked may change, but for what
identifies it. -/
inductive Operation where
  | add (c : Wire.Connection) (now : Nat)
  | remove (seq : Nat)
  | hit (key : FlowKey) (octets : UInt64) (now : Nat)
  | clear
  | edit (seq : Nat) (change : Tracked → Tracked) (keeps : ∀ entry, (change entry).identity = entry.identity)

/-- The table after an operation. What is refused leaves it as it is. -/
def apply (t : ConnectionTable) : Operation → ConnectionTable
  | .add c now =>
    match t.add c now with
    | .ok (_, t') => t'
    | .error _ => t
  | .remove seq => (t.remove seq).2
  | .hit key octets now => (t.hit? key octets now).getD t
  | .clear => t.clear
  | .edit seq change _ => t.modify seq change

/-- The table after operations, in order. -/
def run (t : ConnectionTable) (operations : List Operation) : ConnectionTable := operations.foldl apply t

theorem Exact.apply (h : t.Exact) (operation : Operation) : (t.apply operation).Exact := by
  cases operation with
  | add c now =>
    simp only [ConnectionTable.apply]
    split
    · next added => exact h.add added
    · exact h
  | remove seq => exact h.remove seq
  | hit key octets now =>
    simp only [ConnectionTable.apply]
    cases hit : t.hit? key octets now with
    | none => exact h
    | some t' =>
      obtain ⟨seq, d, -, rfl⟩ := hit?_eq_some hit
      exact h.modify (fun entry => entry.identity_hit d octets now) seq
  | clear => exact t.exact_clear
  | edit seq change keeps => exact h.modify keeps seq

theorem Exact.run (h : t.Exact) (operations : List Operation) : (t.run operations).Exact := by
  induction operations generalizing t with
  | nil => exact h
  | cons operation operations ih => exact ih (h.apply operation)

/-- Whatever is done to an empty table, its index is exact. -/
theorem exact_run (f : Family) (operations : List Operation) : ((empty f).run operations).Exact :=
  (exact_empty f).run operations

/-! ## Looking through all connections -/

/-- The number of the connection that an orig key leads to, by looking through all
connections: the one that forwards the orig direction under the key, or else the oldest
that is forwarded back only and has the key. -/
def scanOrig? (t : ConnectionTable) (k : FlowKey) : Option Nat :=
  (t.oldest? fun entry => entry.connection.key .orig == k && entry.connection.forwards .orig).or
    (t.oldest? fun entry => entry.connection.key .orig == k && entry.connection.directions == .replyOnly)

theorem Exact.scanOrig?_eq_some_iff (h : t.Exact) : t.scanOrig? k = some seq ↔ t.Leads k seq := by
  simp only [scanOrig?, Option.or_eq_some_iff, oldest?_eq_some_iff, oldest?_eq_none_iff, Bool.and_eq_true,
    Bool.and_eq_false_imp, beq_iff_eq, Wire.Connection.directions_eq_replyOnly_iff]
  constructor
  · rintro (⟨entry, stored, ⟨key, forwards⟩, -⟩ | ⟨silent, entry, stored, ⟨key, -⟩, oldest⟩)
    · exact ⟨entry, stored, key, .inl forwards⟩
    · refine ⟨entry, stored, key, .inr fun n other there same => ?_⟩
      have unforwarded := silent n other there same
      exact ⟨unforwarded, oldest n other there ⟨same, unforwarded⟩⟩
  · rintro ⟨entry, stored, key, forwards | oldest⟩
    · refine .inl ⟨entry, stored, ⟨key, forwards⟩, fun n other there is => ?_⟩
      exact Nat.le_of_eq (h.unique stored there forwards is.2 (key.trans is.1.symm)).1
    · refine .inr ⟨fun n other there same => (oldest n other there same).1, entry, stored, ?_, ?_⟩
      · exact ⟨key, (oldest seq entry stored key).1⟩
      · intro n other there is
        exact (oldest n other there is.1).2

theorem Exact.find?_eq_scanOrig? (h : t.Exact) (protocol : UInt16) (orig : Wire.Tuple) :
    t.find? protocol orig = t.scanOrig? (FlowKey.ofTuple protocol orig) := by
  apply Option.ext
  intro seq
  rw [h.find?_eq_some_iff, h.scanOrig?_eq_some_iff]

/-! ## Main result -/

/-- A connection is stored under a number, and a key is its orig key. -/
def Names (t : ConnectionTable) (k : FlowKey) (seq : Nat) (entry : Tracked) : Prop :=
  t.get? seq = some entry ∧ entry.connection.key .orig = k

/-- **Looking for a connection is looking through all.** Whatever was done to a table, what
is found for a protocol and an orig tuple is what a search of all connections finds. A
connection that forwards the orig direction under that key is found, and no second one
does. When all that have the orig key are forwarded back only, the oldest of them is found,
and nothing when there are none. What is found has the key for its orig key: it is never
found for its reply direction. -/
theorem found_by_scan (f : Family) (operations : List Operation) (protocol : UInt16) (orig : Wire.Tuple) :
    let t := (empty f).run operations
    let k := FlowKey.ofTuple protocol orig
    t.find? protocol orig = t.scanOrig? k ∧
      (∀ seq entry, t.Names k seq entry → entry.connection.forwards .orig = true →
        t.find? protocol orig = some seq ∧
          ∀ n other, t.Names k n other → other.connection.forwards .orig = true → n = seq) ∧
      ((∀ seq entry, t.Names k seq entry → entry.connection.directions = .replyOnly) →
        ∀ seq, t.find? protocol orig = some seq ↔
          (∃ entry, t.Names k seq entry) ∧ ∀ n other, t.Names k n other → seq ≤ n) ∧
      (t.find? protocol orig = none ↔ ∀ seq entry, ¬ t.Names k seq entry) ∧
      ∀ seq, t.find? protocol orig = some seq → ∃ entry, t.Names k seq entry := by
  intro t k
  have exact : t.Exact := exact_run f operations
  have leads (seq : Nat) : t.find? protocol orig = some seq ↔ t.Leads k seq := exact.find?_eq_some_iff
  have named (seq : Nat) (found : t.find? protocol orig = some seq) : ∃ entry, t.Names k seq entry := by
    obtain ⟨entry, stored, key, -⟩ := (leads seq).1 found
    exact ⟨entry, stored, key⟩
  refine ⟨exact.find?_eq_scanOrig? protocol orig, fun seq entry names forwards => ⟨?_, ?_⟩, fun silent seq => ?_, ?_,
    named⟩
  · exact (leads seq).2 ⟨entry, names.1, names.2, .inl forwards⟩
  · intro n other names' forwards'
    exact (exact.unique names'.1 names.1 forwards' forwards (names'.2.trans names.2.symm)).1
  · rw [leads]
    constructor
    · rintro ⟨entry, stored, key, forwards | oldest⟩
      · rw [Wire.Connection.directions_eq_replyOnly_iff.1 (silent seq entry ⟨stored, key⟩)] at forwards
        cases forwards
      · exact ⟨⟨entry, stored, key⟩, fun n other names => (oldest n other names.1 names.2).2⟩
    · rintro ⟨⟨entry, stored, key⟩, oldest⟩
      refine ⟨entry, stored, key, .inr fun n other there same => ⟨?_, oldest n other ⟨there, same⟩⟩⟩
      exact Wire.Connection.directions_eq_replyOnly_iff.1 (silent n other ⟨there, same⟩)
  · constructor
    · intro nothing seq entry names
      obtain ⟨found, some⟩ := find?_of_stored names.1 names.2
      rw [nothing] at some
      cases some
    · intro nobody
      rw [Option.eq_none_iff_forall_ne_some]
      intro seq found
      obtain ⟨entry, names⟩ := named seq found
      exact nobody seq entry names

namespace Small

def tuple (port : UInt16) : Wire.Tuple := Wire.Tuple.ofEndpoints (.v4 0x0A000001) (.v4 0x0A000002) port 80

/-- A connection that is forwarded back only. -/
def backward (orig reply : UInt16) : Wire.Connection :=
  { Wire.Connection.ofTuples 6 (tuple orig) (tuple reply) with directions := .replyOnly }

/-- A connection that is forwarded both ways. -/
def forward (orig : UInt16) : Wire.Connection := Wire.Connection.ofTuples 6 (tuple orig) (tuple orig).reversed

/-- Two connections of one orig key, which is the reply key of a third. Of two others of
one orig key the younger forwards it. The oldest has a packet, and is told of another. -/
def operations : List Operation :=
  [.add (backward 1000 2000) 0, .add (backward 1000 3000) 0, .add (backward 4000 1000) 0, .add (backward 5000 6000) 0,
    .add (forward 5000) 0,
    .hit ((backward 1000 2000).key .reply) 100 1,
    .edit 1 (fun entry => { entry with seen := 2 }) fun _ => rfl]

end Small

/-- The key that the index has for a reply direction finds the oldest of those that have it
for their orig key; the connection that forwards its orig key is found before an older
one. -/
theorem found_by_scan_small :
    let t := (empty .v4).run Small.operations
    let k := FlowKey.ofTuple 6 (Small.tuple 1000)
    let k' := FlowKey.ofTuple 6 (Small.tuple 5000)
    t.flows.get? k = some (3, .reply) ∧ t.find? 6 (Small.tuple 1000) = t.scanOrig? k ∧
      t.find? 6 (Small.tuple 1000) = some 1 ∧
      (∃ entry, t.Names k' 4 entry) ∧ t.find? 6 (Small.tuple 5000) = some 5 ∧
      ∀ n other, t.Names k' n other → other.connection.forwards .orig = true → n = 5 := by
  intro t k k'
  obtain ⟨scanned, -⟩ := found_by_scan .v4 Small.operations 6 (Small.tuple 1000)
  obtain ⟨-, forwarded, -⟩ := found_by_scan .v4 Small.operations 6 (Small.tuple 5000)
  have older : t.Names k' 4 ⟨Small.backward 5000 6000, 0, 0⟩ := ⟨by decide +kernel, rfl⟩
  have younger : t.Names k' 5 ⟨Small.forward 5000, 0, 0⟩ := ⟨by decide +kernel, rfl⟩
  obtain ⟨found, only⟩ := forwarded 5 _ younger rfl
  exact ⟨by decide +kernel, scanned, scanned.trans (by decide +kernel), ⟨_, older⟩, found, only⟩

end ConnectionTable

end ControlPlane
