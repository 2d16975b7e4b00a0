/-
Which payloads can be read.

A field is read at its place in a payload (`Layout.readAt`). Of the octets of a record
that has its size only two things can be wrong (`Command.rejects`): flags that leave a
connection no direction, and a severity that there is none of. Whatever else stands in
them is read as a record of the command's type (`Record.ofPayload_of_size`). What was written
has neither fault, so it can be read under its own command even where it is not canonical
(`Record.decode_written`).
-/
import ControlPlane.Proofs.Wire.RoundTrip

namespace ControlPlane

namespace Wire

namespace Layout

variable {α β : Type}

/-- The field of a layout at a place of a payload. -/
def readAt (l : Layout α) (place : Nat) (bs : Bytes) : α := l.read ((bs.drop place).take l.width)

/-- What was written behind other octets is read at its place. -/
theorem readAt_write {l : Layout α} {a : α} (exact : l.Exact a) {place : Nat} {before : Bytes}
    (h : before.length = place) (after : Bytes) : l.readAt place (before ++ (l.write a ++ after)) = a := by
  subst h
  rw [readAt, List.drop_left, ← l.length_write a, List.take_left]
  exact exact

end Layout

/-- The flags of a connection's record leave it no direction. -/
def Directions.contradict (flags : UInt16) : Bool := flags &&& 1 != 0 && flags &&& 2 != 0

theorem Directions.ofFlags?_eq_none_iff {flags : UInt16} : ofFlags? flags = none ↔ contradict flags = true := by
  unfold ofFlags? contradict
  split <;> simp_all

theorem Severity.ofNumber?_eq_none_iff {n : UInt8} : ofNumber? n = none ↔ 2 < n := by
  simp only [ofNumber?, all, number, List.find?_eq_none, List.mem_cons, List.not_mem_nil, or_false,
    forall_eq_or_imp, forall_eq, beq_iff_eq]
  grind

end Wire

/-- Octets of a command's record that are not read, though they are as many as they should
be. -/
def Command.rejects : Command → Bytes → Bool
  | connection _, bs | connectionChange _, bs => Wire.Directions.contradict (Wire.Layout.u16.readAt 4 bs)
  | healthEvent, bs => decide (2 < Wire.Layout.octet.readAt 2 bs)
  | lockSession, _ | unlockSession, _ | interface, _ | route, _ | reset _, _ | setTimeout, _ => false

namespace Wire

variable {command : Command} {action : Action} {bs : Bytes}

theorem Route.decode_of_size (size : bs.length = Command.route.recordSize) :
    ∃ r, decode bs = .ok r ∧ r.id = Layout.u32.readAt 32 bs ∧ r.family = family? (Layout.u32.readAt 36 bs) := by
  simp only [decode, size, ne_eq, not_true_eq_false, if_false]
  refine ⟨_, rfl, ?_, ?_⟩
  · simp only [layout, Layout.seq, Layout.readAt, List.drop_drop]
    rfl
  · simp only [layout, Layout.seq, Layout.readAt, List.drop_drop]
    rfl

theorem decode_interface_of_size (size : bs.length = Command.interface.recordSize) :
    ∃ i, Interface.decode bs = .ok i := by
  simp only [Interface.decode, size, ne_eq, not_true_eq_false, if_false]
  exact ⟨_, rfl⟩

theorem IdleTimeout.decode_of_size (size : bs.length = Command.setTimeout.recordSize) :
    ∃ t, decode bs = .ok t := by
  simp only [decode, size, ne_eq, not_true_eq_false, if_false]
  exact ⟨_, rfl⟩

theorem Connection.decode_of_size {f : Family} (size : bs.length = Command.connectionSize f) :
    (Directions.contradict (Layout.u16.readAt 4 bs) = true ∧ decode f bs = .error (.parse .noDirection)) ∨
      Directions.contradict (Layout.u16.readAt 4 bs) = false ∧ ∃ c, c.family = f ∧ decode f bs = .ok c := by
  have flags : ((layout f).read bs).2.2.1 = Layout.u16.readAt 4 bs := by
    simp only [layout, Layout.seq, Layout.readAt, List.drop_drop]
    rfl
  cases hd : Directions.ofFlags? (Layout.u16.readAt 4 bs) with
  | none =>
    refine .inl ⟨Directions.ofFlags?_eq_none_iff.1 hd, ?_⟩
    simp only [decode, size, ne_eq, not_true_eq_false, if_false, flags, hd]
  | some d =>
    refine .inr ⟨?_, ?_⟩
    · rw [← Bool.not_eq_true, ← Directions.ofFlags?_eq_none_iff, hd]
      exact Option.some_ne_none d
    · simp only [decode, size, ne_eq, not_true_eq_false, if_false, flags, hd]
      exact ⟨_, rfl, rfl⟩

theorem HealthEvent.decode_of_size (size : bs.length = Command.healthEvent.recordSize) :
    (2 < Layout.octet.readAt 2 bs ∧ ∃ fault, decode bs = .error (.parse fault)) ∨
      ¬ 2 < Layout.octet.readAt 2 bs ∧ ∃ e, decode bs = .ok e := by
  have severity : (layout.read bs).2.1 = Layout.octet.readAt 2 bs := by
    simp only [layout, Layout.seq, Layout.readAt]
    rfl
  cases hd : Severity.ofNumber? (Layout.octet.readAt 2 bs) with
  | none =>
    refine .inl ⟨Severity.ofNumber?_eq_none_iff.1 hd, ?_⟩
    simp only [decode, size, ne_eq, not_true_eq_false, if_false, severity, hd]
    exact ⟨_, rfl⟩
  | some s =>
    refine .inr ⟨?_, ?_⟩
    · rw [← Severity.ofNumber?_eq_none_iff, hd]
      exact Option.some_ne_none s
    · simp only [decode, size, ne_eq, not_true_eq_false, if_false, severity, hd]
      exact ⟨_, rfl⟩

/-! ## What was read -/

/-- A name that was read has no NUL, and a next hop is of the family that its slot was read in. -/
theorem Route.of_decode {bs : Bytes} {r : Route} (h : Route.decode bs = .ok r) :
    '\x00' ∉ r.interface.toList ∧ r.nextHop.family = r.family.getD .v4 := by
  unfold Route.decode at h
  split at h
  · cases h
  · cases h
    exact ⟨Layout.nul_not_mem_name _, IpAddress.family_ofSlot _ _⟩

theorem Connection.within_of_decode {f : Family} {bs : Bytes} {c : Connection}
    (h : Connection.decode f bs = .ok c) : c.orig.Within f ∧ c.reply.Within f := by
  have within : ∀ bs, ((Tuple.layout f).read bs).Within f := fun bs =>
    ⟨IpAddress.family_ofSlot f _, IpAddress.family_ofSlot f _⟩
  unfold Connection.decode at h
  simp only at h
  split at h
  · cases h
  · split at h
    · cases h
    · cases h
      exact ⟨within _, within _⟩

namespace Record

theorem ofPayload_of_rejects (size : bs.length = command.recordSize) (h : command.rejects bs = true) :
    ∃ fault, ofPayload command bs = .error (.parse fault) := by
  cases command with
  | connection f | connectionChange f =>
    obtain ⟨-, hd⟩ | ⟨sane, -⟩ := Connection.decode_of_size size
    · exact ⟨_, congrArg (Except.map connection) hd⟩
    · exact absurd h (ne_true_of_eq_false sane)
  | healthEvent =>
    obtain ⟨-, fault, hd⟩ | ⟨known, -⟩ := HealthEvent.decode_of_size size
    · exact ⟨fault, congrArg (Except.map health) hd⟩
    · exact absurd (of_decide_eq_true h) known
  | lockSession | unlockSession | interface | route | reset | setTimeout => cases h

/-- Octets that are not rejected are read as a record of the command's type. -/
theorem ofPayload_of_size (size : bs.length = command.recordSize) (h : command.rejects bs = false) :
    ∃ r, r.Belongs command ∧ ofPayload command bs = .ok r := by
  cases command with
  | connection f =>
    obtain ⟨contradict, -⟩ | ⟨-, c, family, hd⟩ := Connection.decode_of_size size
    · exact absurd contradict (ne_true_of_eq_false h)
    · exact ⟨connection c, .inl (congrArg _ family.symm), congrArg (Except.map connection) hd⟩
  | connectionChange f =>
    obtain ⟨contradict, -⟩ | ⟨-, c, family, hd⟩ := Connection.decode_of_size size
    · exact absurd contradict (ne_true_of_eq_false h)
    · exact ⟨connection c, .inr (congrArg _ family.symm), congrArg (Except.map connection) hd⟩
  | healthEvent =>
    obtain ⟨unknown, -⟩ | ⟨-, e, hd⟩ := HealthEvent.decode_of_size size
    · exact absurd unknown (of_decide_eq_false h)
    · exact ⟨health e, rfl, congrArg (Except.map health) hd⟩
  | route =>
    obtain ⟨r, hd, -⟩ := Route.decode_of_size size
    exact ⟨route r, rfl, congrArg (Except.map route) hd⟩
  | interface =>
    obtain ⟨i, hd⟩ := decode_interface_of_size size
    exact ⟨interface i, rfl, congrArg (Except.map interface) hd⟩
  | setTimeout =>
    obtain ⟨t, hd⟩ := IdleTimeout.decode_of_size size
    exact ⟨idleTimeout t, rfl, congrArg (Except.map idleTimeout) hd⟩
  | lockSession => exact ⟨empty, .inl rfl, rfl⟩
  | unlockSession => exact ⟨empty, .inr (.inl rfl), rfl⟩
  | reset f => exact ⟨empty, .inr (.inr ⟨f, rfl⟩), rfl⟩

/-! ## What was written -/

theorem contradict_encode (c : Connection) (action : Action) :
    Directions.contradict (Layout.u16.readAt 4 (c.encode action)) = false := by
  let before := Layout.u16.write action.number ++ Layout.u16.write c.protocol
  obtain ⟨after, written⟩ : ∃ after, c.encode action = before ++ (Layout.u16.write c.flags ++ after) :=
    ⟨_, (List.append_assoc ..).symm⟩
  have place : before.length = 4 := rfl
  have flags : Layout.u16.readAt 4 (c.encode action) = c.flags := by
    rw [written]
    exact Layout.readAt_write (Layout.exact_u16 _) place after
  have directions : Directions.ofFlags? c.flags = some c.directions := (Connection.flags_read _ _).1
  rw [flags, ← Bool.not_eq_true, ← Directions.ofFlags?_eq_none_iff, directions]
  exact Option.some_ne_none _

theorem severity_encode (e : HealthEvent) : ¬ 2 < Layout.octet.readAt 2 e.encode := by
  have place : (Layout.u16.write e.id).length = 2 := Layout.u16.length_write _
  have severity : Layout.octet.readAt 2 e.encode = e.severity.number :=
    Layout.readAt_write (Layout.exact_octet _) place _
  rw [severity]
  cases e.severity <;> decide

/-- What was written as a record of a command is not rejected. -/
theorem rejects_payload {r : Record} (belongs : r.Belongs command) (action : Action) :
    command.rejects (r.payload action) = false := by
  cases r with
  | connection c => obtain rfl | rfl := belongs <;> exact contradict_encode c action
  | health e =>
    rw [Belongs] at belongs
    subst belongs
    exact decide_eq_false (severity_encode e)
  | route | interface | idleTimeout =>
    rw [Belongs] at belongs
    subst belongs
    rfl
  | empty => obtain rfl | rfl | ⟨f, rfl⟩ := belongs <;> rfl

/-- **Whatever is written under a command of its type can be read**, as a record of that
type, with the action where the command has one. -/
theorem decode_written {r : Record} (belongs : r.Belongs command) (action : Action) :
    ∃ r', r'.Belongs command ∧
      decode ⟨.command, command.code, r.payload action⟩ =
        .ok (if command.hasAction then some action.number else none, r') := by
  have size : (r.payload action).length = command.recordSize := by
    rw [length_payload]
    exact (belongs_iff_size command r).1 belongs
  obtain ⟨r', belongs', read⟩ := ofPayload_of_size size (rejects_payload belongs action)
  exact ⟨r', belongs', decode_of_read belongs read⟩

end Record

end Wire

end ControlPlane
