/-
The record of a connection, read and written again.

Every octet of the record but the action, the upper flags and the reserved ones is read into some field, and
comes back from there at its place: number and address fields are faithful (`Layout.Faithful`), a gap is
not. The octets are taken apart once in the order of the fields (`exists_fields`), so no offset is computed
but those of the statement.

Main result: `connection_rewritten`.
-/
import ControlPlane.Proofs.Wire.Envelope
import ControlPlane.Proofs.Wire.Reading
import Mathlib.Data.List.Basic
import Mathlib.Tactic.IntervalCases

namespace ControlPlane.Wire

/-! ## Octets in other octets' place -/

/-- Octets with others in place of those from a place on. -/
def overwrite (place : Nat) (new bs : Bytes) : Bytes := bs.take place ++ new ++ bs.drop (place + new.length)

section Overwrite

variable {place : Nat} {new xs ys bs : Bytes}

theorem overwrite_behind (k : Nat) (h : place = xs.length + k) :
    overwrite place new (xs ++ ys) = xs ++ overwrite k new ys := by
  subst h
  rw [overwrite, overwrite, List.take_length_add_append, Nat.add_assoc, List.drop_length_add_append]
  simp only [List.append_assoc]

theorem overwrite_within (h : place + new.length ≤ xs.length) :
    overwrite place new (xs ++ ys) = overwrite place new xs ++ ys := by
  have before : place ≤ xs.length := Nat.le_trans (Nat.le_add_right ..) h
  rw [overwrite, overwrite, List.take_append_of_le_length before, List.drop_append_of_le_length h]
  simp only [List.append_assoc]

theorem overwrite_all (h : xs.length = new.length) : overwrite 0 new xs = new := by
  rw [overwrite, List.take_zero, Nat.zero_add, ← h, List.drop_length, List.nil_append, List.append_nil]

end Overwrite

/-! ## Fields that are written as they stood -/

/-- Octets in the order of their fields: those of the first, and the others. -/
theorem exists_fields {bs : Bytes} (first others : Nat) (h : bs.length = first + others) :
    ∃ xs ys, bs = xs ++ ys ∧ xs.length = first ∧ ys.length = others :=
  ⟨bs.take first, bs.drop first, (List.take_append_drop first bs).symm, by simp; omega, by simp; omega⟩

namespace Layout

variable {α β : Type} {bs : Bytes}

theorem read_seq_append {l : Layout α} {m : Layout β} {xs : Bytes} (h : xs.length = l.width) (ys : Bytes) :
    (l.seq m).read (xs ++ ys) = (l.read xs, m.read ys) := by
  simp only [seq, ← h, List.take_left', List.drop_left']

/-- What was read of two fields is written again as what each of them is written as. -/
theorem write_read_seq {l : Layout α} {m : Layout β} {xs xs' ys ys' : Bytes} (width : xs.length = l.width)
    (hx : l.write (l.read xs) = xs') (hy : m.write (m.read ys) = ys') :
    (l.seq m).write ((l.seq m).read (xs ++ ys)) = xs' ++ ys' := by
  rw [read_seq_append width, ← hx, ← hy]
  rfl

/-- A number that was read in so many octets is written in the same ones. -/
theorem bigEndian_value_mod {width bound : Nat} (h : bs.length = width) (span : Bytes.span width = bound) :
    Bytes.bigEndian width (Bytes.value bs % bound) = bs := by
  have lt := Bytes.value_lt bs
  have same := Bytes.bigEndian_value bs
  rw [h] at lt same
  rwa [← span, Nat.mod_eq_of_lt lt]

theorem faithful_u16 (h : bs.length = 2) : u16.Faithful bs := bigEndian_value_mod h rfl

theorem faithful_u32 (h : bs.length = 4) : u32.Faithful bs := bigEndian_value_mod h rfl

theorem faithful_u64 (h : bs.length = 8) : u64.Faithful bs := bigEndian_value_mod h rfl

theorem faithful_address {f : Family} (h : bs.length = f.width) : (address f).Faithful bs :=
  IpAddress.slot_ofSlot h

end Layout

theorem Tuple.width_layout (f : Family) : (layout f).width = 2 * f.width + 12 := by
  show f.width + (f.width + 12) = 2 * f.width + 12
  omega

/-- A tuple is written as it stood, but for the reserved octets at its end. -/
theorem Tuple.write_read {f : Family} {bs : Bytes} (size : bs.length = 2 * f.width + 12) :
    (layout f).write ((layout f).read bs) = overwrite (2 * f.width + 10) [0, 0] bs := by
  have addresses : 2 * f.width + 12 = f.width + (f.width + 12) := by omega
  obtain ⟨source, rest, rfl, hs, size⟩ := exists_fields f.width (f.width + 12) (size.trans addresses)
  obtain ⟨destination, rest, rfl, hd, size⟩ := exists_fields f.width 12 size
  obtain ⟨sourcePort, rest, rfl, hsp, size⟩ := exists_fields 2 10 size
  obtain ⟨destinationPort, rest, rfl, hdp, size⟩ := exists_fields 2 8 size
  obtain ⟨routeId, rest, rfl, hr, size⟩ := exists_fields 4 4 size
  obtain ⟨vlan, gap, rfl, hv, hg⟩ := exists_fields 2 2 size
  rw [overwrite_behind (f.width + 10) (by omega), overwrite_behind 10 (by omega), overwrite_behind 8 (by omega),
    overwrite_behind 6 (by omega), overwrite_behind 2 (by omega), overwrite_behind 0 (by omega), overwrite_all hg]
  exact Layout.write_read_seq hs (Layout.faithful_address hs) <|
    Layout.write_read_seq hd (Layout.faithful_address hd) <|
    Layout.write_read_seq hsp (Layout.faithful_u16 hsp) <|
    Layout.write_read_seq hdp (Layout.faithful_u16 hdp) <|
    Layout.write_read_seq hr (Layout.faithful_u32 hr) <|
    Layout.write_read_seq hv (Layout.faithful_u16 hv) rfl

theorem Traffic.faithful {bs : Bytes} (size : bs.length = 12) : layout.Faithful bs := by
  obtain ⟨hits, octets, rfl, hh, ho⟩ := exists_fields 4 8 size
  exact Layout.write_read_seq hh (Layout.faithful_u32 hh) (Layout.faithful_u64 ho)

/-! ## Flags -/

/-- The low flags stand in the second of their two octets. -/
theorem read_u16_and (high low mask : UInt8) :
    Layout.u16.read [high, low] &&& mask.toUInt16 = (low &&& mask).toUInt16 := by
  have hm := mask.toNat_lt
  have hl := low.toNat_lt
  have hh := high.toNat_lt
  have number : (Layout.u16.read [high, low]).toNat = low.toNat + 256 * high.toNat := by
    rw [Layout.u16, UInt16.toNat_ofNat', value_pair]
    exact Nat.mod_eq_of_lt (by omega)
  -- the mask is below 256, so only the numbers modulo 256 meet
  have meet : (low.toNat + 256 * high.toNat) &&& mask.toNat = low.toNat &&& mask.toNat := by
    have below : (low.toNat + 256 * high.toNat) &&& mask.toNat < 2 ^ 8 :=
      Nat.lt_of_le_of_lt Nat.and_le_right hm
    rw [← Nat.mod_eq_of_lt below, Nat.and_mod_two_pow, Nat.mod_eq_of_lt hm]
    congr 1
    omega
  rw [← UInt16.toNat_inj, UInt16.toNat_and, number, UInt8.toNat_toUInt16, UInt8.toNat_toUInt16, UInt8.toNat_and, meet]

namespace Connection

variable {f : Family} {bs : Bytes} {c : Connection}

/-- All that the flags say is in the low three bits of their second octet, and is written there again. -/
theorem flags_rewritten (high low : UInt8) :
    (Directions.contradict (Layout.u16.read [high, low]) = true ↔ low &&& 3 = 3) ∧
      ∀ d, Directions.ofFlags? (Layout.u16.read [high, low]) = some d →
        Layout.u16.write (d.flags ||| (if Layout.u16.read [high, low] &&& ttlFlag != 0 then ttlFlag else 0)) =
          [0, low &&& 7] := by
  have orig : Layout.u16.read [high, low] &&& 1 = (low &&& 1).toUInt16 := read_u16_and high low 1
  have reply : Layout.u16.read [high, low] &&& 2 = (low &&& 2).toUInt16 := read_u16_and high low 2
  have ttl : Layout.u16.read [high, low] &&& ttlFlag = (low &&& 4).toUInt16 := read_u16_and high low 4
  have within (mask : UInt8) (h : 7 &&& mask = mask) : low &&& mask = (low &&& 7) &&& mask := by
    rw [UInt8.and_assoc, h]
  simp only [Directions.contradict, Directions.ofFlags?, orig, reply, ttl, within 1 rfl, within 2 rfl,
    within 3 rfl, within 4 rfl]
  have few : (low &&& 7).toNat < 8 := Nat.lt_of_le_of_lt Nat.and_le_right (by decide)
  have same : low &&& 7 = UInt8.ofNat (low &&& 7).toNat := by simp
  rw [same]
  generalize (low &&& 7).toNat = n at few
  interval_cases n <;> decide

/-- The fields behind the header. -/
def body (f : Family) : Layout (Tuple × Tuple × Traffic × Traffic) :=
  (Tuple.layout f).seq <| (Tuple.layout f).seq <| Traffic.layout.seq Traffic.layout

theorem body_write_read (size : bs.length = 2 * (2 * f.width + 12) + 24) :
    (body f).write ((body f).read bs) =
      overwrite (2 * f.width + 10) [0, 0] (overwrite (2 * f.width + 12 + (2 * f.width + 10)) [0, 0] bs) := by
  have tuples : 2 * (2 * f.width + 12) + 24 = 2 * f.width + 12 + (2 * f.width + 12 + 24) := by omega
  obtain ⟨orig, rest, rfl, ho, size⟩ := exists_fields _ _ (size.trans tuples)
  obtain ⟨reply, traffic, rfl, hr, size⟩ := exists_fields _ _ size
  obtain ⟨origTraffic, replyTraffic, rfl, hot, hrt⟩ := exists_fields 12 12 size
  have within {tuple : Bytes} (h : tuple.length = 2 * f.width + 12) :
      2 * f.width + 10 + ([0, 0] : Bytes).length ≤ tuple.length := Nat.le_of_eq h.symm
  rw [overwrite_behind (2 * f.width + 10) (by rw [ho]), overwrite_within (within hr), overwrite_within (within ho)]
  have width := Tuple.width_layout f
  exact Layout.write_read_seq (ho.trans width.symm) (Tuple.write_read ho) <|
    Layout.write_read_seq (hr.trans width.symm) (Tuple.write_read hr) <|
    Layout.write_read_seq hot (Traffic.faithful hot) (Traffic.faithful hrt)

/-- The octets of a record under another action: the flags that say nothing and the reserved octets are
zeros. -/
def resent (f : Family) (action : Action) (bs : Bytes) : Bytes :=
  overwrite 0 (Bytes.bigEndian 2 action.number.toNat) <| overwrite 4 [0, octetAt bs 5 &&& 7] <|
    overwrite 6 [0, 0] <| overwrite (8 + (2 * f.width + 10)) [0, 0] <|
    overwrite (8 + (2 * f.width + 12 + (2 * f.width + 10))) [0, 0] bs

theorem size_of_decode (h : decode f bs = .ok c) : bs.length = Command.connectionSize f := by
  by_contra other
  simp only [decode, other, ne_eq, not_false_eq_true, if_true] at h
  cases h

/-- The record as its header, octet by octet, and the fields behind it. -/
theorem exists_header (size : bs.length = Command.connectionSize f) :
    ∃ a₀ a₁ p₀ p₁ high low r₀ r₁ rest, bs = [a₀, a₁, p₀, p₁, high, low, r₀, r₁] ++ rest ∧
      rest.length = 2 * (2 * f.width + 12) + 24 := by
  have fields : Command.connectionSize f = 8 + (2 * (2 * f.width + 12) + 24) := Nat.add_assoc ..
  obtain ⟨header, rest, rfl, hh, behind⟩ := exists_fields _ _ (size.trans fields)
  match header, hh with
  | [a₀, a₁, p₀, p₁, high, low, r₀, r₁], _ => exact ⟨a₀, a₁, p₀, p₁, high, low, r₀, r₁, rest, rfl, behind⟩

/-- What is written, header first. -/
theorem encode_eq (c : Connection) (action : Action) :
    c.encode action = Layout.u16.write action.number ++ (Layout.u16.write c.protocol ++ (Layout.u16.write c.flags ++
      ([0, 0] ++ (body c.family).write (c.orig, c.reply, c.origTraffic, c.replyTraffic)))) := rfl

/-- **What was read is written as it stood**, but for the action and the octets that say nothing. -/
theorem encode_of_decode (h : decode f bs = .ok c) (action : Action) : c.encode action = resent f action bs := by
  have size := size_of_decode h
  obtain ⟨a₀, a₁, p₀, p₁, high, low, r₀, r₁, rest, rfl, behind⟩ := exists_header size
  have read : (layout f).read ([a₀, a₁, p₀, p₁, high, low, r₀, r₁] ++ rest) =
      (Layout.u16.read [a₀, a₁], Layout.u16.read [p₀, p₁], Layout.u16.read [high, low], (), (body f).read rest) :=
    rfl
  simp only [decode, size, ne_eq, not_true_eq_false, if_false, read] at h
  cases hd : Directions.ofFlags? (Layout.u16.read [high, low]) with
  | none => simp only [hd] at h; cases h
  | some d =>
    simp only [hd] at h
    cases h
    have protocol : Layout.u16.write (Layout.u16.read [p₀, p₁]) = [p₀, p₁] := Layout.faithful_u16 rfl
    have flags := (flags_rewritten high low).2 d hd
    have gaps : overwrite (8 + (2 * f.width + 10)) [0, 0] (overwrite (8 + (2 * f.width + 12 + (2 * f.width + 10)))
        [0, 0] ([a₀, a₁, p₀, p₁, high, low, r₀, r₁] ++ rest)) =
        [a₀, a₁, p₀, p₁, high, low, r₀, r₁] ++ (body f).write ((body f).read rest) := by
      rw [body_write_read behind, overwrite_behind (2 * f.width + 12 + (2 * f.width + 10)) (by rfl),
        overwrite_behind (2 * f.width + 10) (by rfl)]
    have written : resent f action ([a₀, a₁, p₀, p₁, high, low, r₀, r₁] ++ rest) =
        Layout.u16.write action.number ++ ([p₀, p₁] ++ ([0, low &&& 7] ++
          ([0, 0] ++ (body f).write ((body f).read rest)))) := by
      rw [resent, gaps]
      rfl
    rw [encode_eq, written, protocol, Connection.flags, flags]

/-- A record of the right size is read unless its flags leave the connection no direction. -/
theorem decode_of_low_flags (size : bs.length = Command.connectionSize f) :
    (octetAt bs 5 &&& 3 = 3 → decode f bs = .error (.parse .noDirection)) ∧
      (octetAt bs 5 &&& 3 ≠ 3 → ∃ c, decode f bs = .ok c) := by
  have read := decode_of_size size
  obtain ⟨a₀, a₁, p₀, p₁, high, low, r₀, r₁, rest, rfl, -⟩ := exists_header size
  have flags := (flags_rewritten high low).1
  have place : Layout.u16.readAt 4 ([a₀, a₁, p₀, p₁, high, low, r₀, r₁] ++ rest) = Layout.u16.read [high, low] := rfl
  rw [place] at read
  obtain ⟨contradict, refused⟩ | ⟨sane, c, -, accepted⟩ := read
  · exact ⟨fun _ => refused, fun other => absurd (flags.1 contradict) other⟩
  · refine ⟨fun both => ?_, fun _ => ⟨c, accepted⟩⟩
    exact absurd (flags.2 both) (ne_true_of_eq_false sane)

/-- **Octets are the record of a connection exactly when they are 72 or 120, by the family, and the flags do
not switch off both directions. A record that was read is written as it stood, but for the action, the
flags that say nothing and the reserved octets, which are zeros.** -/
theorem connection_rewritten :
    (Command.connectionSize .v4 = 72 ∧ Command.connectionSize .v6 = 120) ∧
    ∀ (f : Family) (bs : Bytes),
      ((∃ c, decode f bs = .ok c) ↔ bs.length = Command.connectionSize f ∧ octetAt bs 5 &&& 3 ≠ 3) ∧
      (bs.length ≠ Command.connectionSize f → decode f bs =
        .error (.malformedRecord (Command.connection f).code (Command.connectionSize f) bs.length)) ∧
      (bs.length = Command.connectionSize f → octetAt bs 5 &&& 3 = 3 →
        decode f bs = .error (.parse .noDirection)) ∧
      ∀ c, decode f bs = .ok c → ∀ action, c.encode action = resent f action bs := by
  refine ⟨⟨rfl, rfl⟩, fun f bs => ⟨⟨?_, ?_⟩, ?_, fun size => (decode_of_low_flags size).1,
    fun c h action => encode_of_decode h action⟩⟩
  · rintro ⟨c, h⟩
    have size := size_of_decode h
    refine ⟨size, fun both => ?_⟩
    rw [(decode_of_low_flags size).1 both] at h
    cases h
  · rintro ⟨size, sane⟩
    exact (decode_of_low_flags size).2 sane
  · intro other
    simp only [decode, other, ne_eq, not_false_eq_true, if_true]

/-- The octets of a connection in the reply direction only, with an unknown flag and no reserved octet
zero. -/
def sampleRecord : Bytes :=
  [0, 6, 0, 17, 0x80, 0x0D, 1, 1,
    10, 0, 0, 1, 10, 0, 0, 2, 4, 0, 0, 80, 0, 0, 0, 7, 0, 3, 2, 2,
    10, 0, 0, 2, 10, 0, 0, 1, 0, 80, 4, 0, 0, 0, 0, 8, 0, 4, 3, 3,
    0, 0, 0, 1, 0, 0, 0, 0, 0, 0, 0, 64, 0, 0, 0, 2, 0, 0, 0, 0, 0, 0, 0, 128]

theorem connection_rewritten_small :
    (∃ c, decode .v4 sampleRecord = .ok c ∧ c.encode .update =
      [0, 4, 0, 17, 0, 5, 0, 0,
        10, 0, 0, 1, 10, 0, 0, 2, 4, 0, 0, 80, 0, 0, 0, 7, 0, 3, 0, 0,
        10, 0, 0, 2, 10, 0, 0, 1, 0, 80, 4, 0, 0, 0, 0, 8, 0, 4, 0, 0,
        0, 0, 0, 1, 0, 0, 0, 0, 0, 0, 0, 64, 0, 0, 0, 2, 0, 0, 0, 0, 0, 0, 0, 128]) ∧
    decode .v6 sampleRecord = .error (.malformedRecord 0x0414 120 72) ∧
    decode .v4 (sampleRecord.set 5 3) = .error (.parse .noDirection) := by
  obtain ⟨-, statement⟩ := connection_rewritten
  have size : sampleRecord.length = Command.connectionSize .v4 := rfl
  obtain ⟨c, read⟩ := (statement .v4 sampleRecord).1.2 ⟨size, by decide⟩
  refine ⟨⟨c, read, ?_⟩, ?_, ?_⟩
  · exact ((statement .v4 sampleRecord).2.2.2 c read .update).trans (by decide)
  · exact (statement .v6 sampleRecord).2.1 (by decide)
  · exact (statement .v4 (sampleRecord.set 5 3)).2.2.1 rfl (by decide)

end Connection

end ControlPlane.Wire
