/-
Which octets are a reply, and which an announcement.

A reply is a status and whatever comes behind it; a payload is one exactly when it starts with the number of
a status. An announcement is twenty octets, the first of which names a family. An address is read from it as
it was written; written again are all octets but the reserved one and those that an IPv4 address leaves
unused, which are zeros.

Main result: `replies_and_announcements`.
-/
import ControlPlane.Proofs.Wire.Rewriting

namespace ControlPlane.Wire

/-! ## Replies -/

/-- A number is written in the two octets that spell it. -/
theorem Layout.write_u16_eq_iff {n : UInt16} {high low : UInt8} :
    u16.write n = [high, low] ↔ n.toNat = 256 * high.toNat + low.toNat := by
  have spelled : Bytes.value [high, low] = 256 * high.toNat + low.toNat := by
    rw [value_pair]
    omega
  rw [← spelled]
  constructor
  · intro written
    have lt := n.toNat_lt
    rw [← written, u16, Bytes.value_bigEndian, Bytes.span_two]
    omega
  · intro number
    show Bytes.bigEndian 2 n.toNat = _
    rw [number]
    exact Bytes.bigEndian_value [high, low]

/-- The statuses have eleven numbers. -/
theorem Status.exists_number_iff {n : UInt16} : (∃ status : Status, status.number = n) ↔
    n ∈ [0, 1, 2, 3, 4, 0x0100, 0x0101, 0x0102, 0x0200, 0x0201, 0x0202] := by
  have known : (∃ status : Status, status.number = n) ↔ n ∈ Status.all.map Status.number := by
    rw [List.mem_map]
    exact ⟨fun ⟨status, number⟩ => ⟨status, by cases status <;> decide, number⟩,
      fun ⟨status, _, number⟩ => ⟨status, number⟩⟩
  exact known

namespace Reply

variable {m : Message} {r : Reply}

/-- What becomes of a payload of two octets or more. -/
theorem ofMessage_of_payload {high low : UInt8} {rest : Bytes} (h : m.payload = high :: low :: rest) :
    ofMessage m =
      match Status.ofNumber? (Layout.u16.read [high, low]) with
      | none => .error (.parse (.unknownStatus (Layout.u16.read [high, low])))
      | some status => .ok ⟨status, rest⟩ := by
  simp only [ofMessage, Message.action?, h]
  rfl

theorem ofMessage_of_short (h : m.payload.length < 2) : ofMessage m = .error (.parse .replyWithoutStatus) := by
  have none : m.action? = none := by
    unfold Message.action?
    split
    · next payload =>
      rw [payload, List.length_cons, List.length_cons] at h
      omega
    · rfl
  rw [ofMessage, none]

/-- A message is a reply when its payload is the number of a status, and a record. -/
theorem ofMessage_eq_ok_iff :
    ofMessage m = .ok r ↔ m.payload = Layout.u16.write r.status.number ++ r.record := by
  constructor
  · intro read
    match payload : m.payload with
    | [] | [_] =>
      rw [ofMessage_of_short (by simp [payload])] at read
      cases read
    | high :: low :: rest =>
      rw [ofMessage_of_payload payload] at read
      cases known : Status.ofNumber? (Layout.u16.read [high, low]) with
      | none =>
        rw [known] at read
        cases read
      | some status =>
        rw [known] at read
        cases read
        have written : Layout.u16.write (Layout.u16.read [high, low]) = [high, low] := Layout.faithful_u16 rfl
        rw [Status.number_of_ofNumber? known, written]
        rfl
  · intro payload
    have same : m = { r.toMessage m.code with kind := m.kind } := by
      obtain ⟨kind, code, _⟩ := m
      exact congrArg (Message.mk kind code) payload
    rw [same]
    exact ofMessage_toMessage r m.code

/-- A message is a reply when its payload starts with the number of a status. -/
theorem ofMessage_isOk_iff :
    (∃ r, ofMessage m = .ok r) ↔
      ∃ (status : Status) (high low : UInt8) (rest : Bytes), m.payload = high :: low :: rest ∧
        status.number.toNat = 256 * high.toNat + low.toNat := by
  constructor
  · rintro ⟨r, read⟩
    refine ⟨r.status, _, _, r.record, ofMessage_eq_ok_iff.1 read, Layout.write_u16_eq_iff.1 rfl⟩
  · rintro ⟨status, high, low, rest, payload, number⟩
    refine ⟨⟨status, rest⟩, ofMessage_eq_ok_iff.2 ?_⟩
    rw [payload, Layout.write_u16_eq_iff.2 number]
    rfl

end Reply

/-! ## Announcements -/

namespace Registration

variable {bs slot : Bytes} {a : SocketAddress} {number reserved high low : UInt8} {f : Family}

theorem family?_familyNumber (f : Family) : family? (familyNumber f) = some f := by
  cases f <;> rfl

theorem familyNumber_of_family? (h : family? number = some f) : familyNumber f = number := by
  simpa using List.find?_some h

theorem family?_isSome_iff {n : UInt8} : (family? n).isSome = true ↔ n ∈ [4, 6] := by
  simp only [family?, List.find?_isSome, List.mem_cons, List.not_mem_nil, or_false, exists_eq_or_imp,
    exists_eq_left, familyNumber, beq_iff_eq]
  grind

/-- An announcement can be read when it has its size and the number of a family in front. -/
theorem decode_isOk_iff :
    (decode bs).isOk = true ↔ bs.length = size ∧ Layout.octet.readAt 0 bs ∈ [4, 6] := by
  have number : (layout.read bs).1 = Layout.octet.readAt 0 bs := rfl
  rw [← family?_isSome_iff]
  by_cases fits : bs.length = size
  · simp only [decode, fits, ne_eq, not_true_eq_false, if_false, number, true_and]
    cases family? (Layout.octet.readAt 0 bs) <;> rfl
  · simp [decode, fits, Except.isOk, Except.toBool]

/-- An announcement as its fields. -/
theorem exists_parts (h : bs.length = size) :
    ∃ number reserved high low slot, bs = number :: reserved :: high :: low :: slot ∧ slot.length = 16 := by
  match bs, h with
  | number :: reserved :: high :: low :: slot, h =>
    exact ⟨number, reserved, high, low, slot, rfl, by simpa [size] using h⟩

theorem decode_parts (h : slot.length = 16) :
    decode (number :: reserved :: high :: low :: slot) =
      match family? number with
      | none => .error (.parse (.unknownFamily number))
      | some f => .ok { ip := IpAddress.ofSlot f (slot.take f.width), port := Layout.u16.read [high, low] } := by
  have read : layout.read (number :: reserved :: high :: low :: slot) =
      (number, (), Layout.u16.read [high, low], slot) := by
    have first : Layout.octet.read [number] = number := Layout.exact_octet number
    exact Prod.ext first rfl
  simp only [decode, List.length_cons, h, size, read]
  rfl

/-- Octets are an announcement when they are twenty and the first names a family. -/
theorem decode_eq_ok_iff (h : slot.length = 16) :
    decode (number :: reserved :: high :: low :: slot) = .ok a ↔
      ∃ f, number = familyNumber f ∧
        a = { ip := IpAddress.ofSlot f (slot.take f.width), port := Layout.u16.read [high, low] } := by
  rw [decode_parts h]
  constructor
  · intro read
    cases named : family? number with
    | none =>
      rw [named] at read
      cases read
    | some f =>
      rw [named] at read
      cases read
      exact ⟨f, (familyNumber_of_family? named).symm, rfl⟩
  · rintro ⟨f, rfl, rfl⟩
    rw [family?_familyNumber]

theorem size_of_decode (h : decode bs = .ok a) : bs.length = size := by
  by_contra other
  simp only [decode, other, ne_eq, not_false_eq_true, if_true] at h
  cases h

/-- What is written of an address. -/
theorem encode_eq (a : SocketAddress) :
    encode a =
      familyNumber a.ip.family :: 0 :: (Layout.u16.write a.port ++ (IpAddress.slot a.ip.family a.ip).fit 16) := rfl

/-- An address of no zone is read from its announcement. -/
theorem decode_encode (h : a.zone = 0) : decode (encode a) = .ok a := by
  obtain ⟨ip, port, zone⟩ := a
  cases h
  have slot : ((IpAddress.slot ip.family ip).fit 16).take ip.family.width = IpAddress.slot ip.family ip :=
    take_fit (IpAddress.length_slot ..) (width_le _)
  have back : Layout.u16.read (Layout.u16.write port) = port := Layout.exact_u16 port
  rw [encode_eq]
  refine (decode_eq_ok_iff (Bytes.length_fit ..)).2 ⟨ip.family, rfl, ?_⟩
  rw [slot, IpAddress.ofSlot_slot]
  exact congrArg (SocketAddress.mk ip · 0) back.symm

/-- The octets of an announcement that are read: all but the reserved one and those behind an
IPv4 address, in place of which are zeros. -/
def resent : Family → Bytes → Bytes
  | .v4, bs => overwrite 1 [0] (overwrite 8 (Bytes.zeros 12) bs)
  | .v6, bs => overwrite 1 [0] bs

/-- What was read is written as it stood, but for the octets that are not read. -/
theorem encode_of_decode (h : decode bs = .ok a) :
    octetAt bs 0 = familyNumber a.ip.family ∧ a.zone = 0 ∧ encode a = resent a.ip.family bs := by
  obtain ⟨number, reserved, high, low, slot, rfl, size⟩ := exists_parts (size_of_decode h)
  obtain ⟨f, rfl, rfl⟩ := (decode_eq_ok_iff size).1 h
  have port : Layout.u16.write (Layout.u16.read [high, low]) = [high, low] := Layout.faithful_u16 rfl
  have width : (slot.take f.width).length = f.width := by
    rw [List.length_take, size]
    exact Nat.min_eq_left (width_le f)
  rw [encode_eq, IpAddress.family_ofSlot, IpAddress.slot_ofSlot width, port]
  refine ⟨rfl, rfl, ?_⟩
  cases f with
  | v4 =>
    obtain ⟨ip, rest, rfl, hi, hr⟩ := exists_fields 4 12 size
    -- the address stands in the first four of sixteen octets, and the others are not read
    have filled : (ip : Bytes).fit 16 = ip ++ Bytes.zeros 12 := by
      rw [Bytes.fit, List.take_of_length_le (by omega), hi]
    have zeros : overwrite 8 (Bytes.zeros 12) (familyNumber .v4 :: reserved :: high :: low :: (ip ++ rest)) =
        [familyNumber .v4, reserved, high, low] ++ (ip ++ Bytes.zeros 12) := by
      have parts : familyNumber .v4 :: reserved :: high :: low :: (ip ++ rest) =
          [familyNumber .v4, reserved, high, low] ++ (ip ++ rest) := rfl
      rw [parts, overwrite_behind 4 (by rfl), overwrite_behind 0 (by rw [hi]), overwrite_all hr]
    have address : (ip ++ rest).take 4 = ip := List.take_left' hi
    show familyNumber .v4 :: 0 :: ([high, low] ++ Bytes.fit 16 ((ip ++ rest).take 4)) = _
    rw [address, filled, resent, zeros]
    rfl
  | v6 =>
    have whole : slot.take 16 = slot := List.take_of_length_le (Nat.le_of_eq size)
    show familyNumber .v6 :: 0 :: ([high, low] ++ Bytes.fit 16 (slot.take 16)) = _
    rw [whole, Bytes.fit_of_length size]
    rfl

theorem octet_readAt_zero (bs : Bytes) : Layout.octet.readAt 0 bs = octetAt bs 0 := by
  cases bs with
  | nil => rfl
  | cons first _ => exact Layout.exact_octet first

theorem decode_isOk_iff_family :
    (∃ a, decode bs = .ok a) ↔ bs.length = 20 ∧ (octetAt bs 0 = 4 ∨ octetAt bs 0 = 6) := by
  have number := @decode_isOk_iff bs
  rw [octet_readAt_zero, List.mem_pair] at number
  refine Iff.trans ?_ number
  cases decode bs <;> simp [Except.isOk, Except.toBool]

end Registration

/-! ## Both formats -/

/-- **A reply is read from its own message, and that message from its datagram while the record is of at most
254 octets; a message is a reply exactly when its payload starts with the number of a status, and the record
is what follows. An address of no zone is read from its announcement. Octets are an announcement exactly when
they are twenty, and the first is 4 or 6; the address that they give is written as they stood, but for the
reserved octet and the twelve behind an IPv4 address, which are zeros.** -/
theorem replies_and_announcements :
    (∀ n : UInt16, (∃ status : Status, status.number = n) ↔
      n ∈ [0, 1, 2, 3, 4, 0x0100, 0x0101, 0x0102, 0x0200, 0x0201, 0x0202]) ∧
    (∀ (r : Reply) (code : UInt16), Reply.ofMessage (r.toMessage code) = .ok r ∧
      (r.record.length ≤ 254 → Message.decode (r.toMessage code).encode = .ok (r.toMessage code))) ∧
    (∀ m : Message,
      ((∃ r, Reply.ofMessage m = .ok r) ↔ ∃ (status : Status) (high low : UInt8) (rest : Bytes),
        m.payload = high :: low :: rest ∧ status.number.toNat = 256 * high.toNat + low.toNat) ∧
      ∀ r, Reply.ofMessage m = .ok r ↔ m.payload = Layout.u16.write r.status.number ++ r.record) ∧
    (∀ a : SocketAddress, a.zone = 0 → Registration.decode (Registration.encode a) = .ok a) ∧
    ∀ bs : Bytes,
      ((∃ a, Registration.decode bs = .ok a) ↔ bs.length = 20 ∧ (octetAt bs 0 = 4 ∨ octetAt bs 0 = 6)) ∧
      ∀ a, Registration.decode bs = .ok a →
        octetAt bs 0 = Registration.familyNumber a.ip.family ∧ a.zone = 0 ∧
          Registration.encode a = Registration.resent a.ip.family bs := by
  refine ⟨fun n => Status.exists_number_iff,
    fun r code => ⟨Reply.ofMessage_toMessage r code, fun fits => ?_⟩,
    fun m => ⟨Reply.ofMessage_isOk_iff, fun r => Reply.ofMessage_eq_ok_iff⟩,
    fun a => Registration.decode_encode,
    fun bs => ⟨Registration.decode_isOk_iff_family, fun a => Registration.encode_of_decode⟩⟩
  exact Reply.decode_toMessage (Nat.add_le_add_right fits 2) code

namespace Small

/-- A reply with a record. -/
def refusal : Reply := ⟨.wrongSession, [0, 0, 0, 7]⟩

/-- Octets of an announcement over IPv4, with something in each octet that is not read. -/
def announced : Bytes := [4, 9, 0x1F, 0x90, 10, 0, 0, 1, 1, 2, 3, 4, 5, 6, 7, 8, 9, 10, 11, 12]

def back : SocketAddress := { ip := .v4 0x0A000001, port := 8080 }

end Small

theorem replies_and_announcements_small :
    Message.decode (Small.refusal.toMessage 0x0401).encode = .ok (Small.refusal.toMessage 0x0401) ∧
    Reply.ofMessage ⟨.command, 0x0401, [2, 2, 0, 0, 0, 7]⟩ = .ok Small.refusal ∧
    (¬ ∃ r, Reply.ofMessage ⟨.command, 0x0401, [0, 5, 0, 0, 0, 7]⟩ = .ok r) ∧
    Registration.decode (Registration.encode Small.back) = .ok Small.back ∧
    (∃ a, Registration.decode Small.announced = .ok a ∧
      Registration.encode a = [4, 0, 0x1F, 0x90, 10, 0, 0, 1, 0, 0, 0, 0, 0, 0, 0, 0, 0, 0, 0, 0]) ∧
    ¬ ∃ a, Registration.decode (Small.announced.set 0 5) = .ok a := by
  obtain ⟨numbers, replies, messages, announcements, octets⟩ := replies_and_announcements
  refine ⟨(replies Small.refusal 0x0401).2 (by decide), (messages _).2 _ |>.2 (by decide), ?_,
    announcements Small.back rfl, ?_, ?_⟩
  · rintro read
    obtain ⟨status, high, low, rest, payload, number⟩ := (messages _).1.1 read
    cases payload
    have five : status.number = 5 := UInt16.toNat_inj.1 number
    exact absurd ((numbers 5).1 ⟨status, five⟩) (by decide)
  · obtain ⟨a, read⟩ := (octets Small.announced).1.2 (by decide)
    obtain ⟨family, -, written⟩ := (octets Small.announced).2 a read
    have v4 : a.ip.family = .v4 := by
      cases h : a.ip.family
      · rfl
      · rw [h] at family
        exact absurd family (by decide)
    exact ⟨a, read, by rw [written, v4]; decide⟩
  · intro read
    exact absurd ((octets _).1.1 read) (by decide)

end ControlPlane.Wire
