/-
Which octets are the datagram of a message.

`Framed` says it by the octets alone: a header of six, a kind, a length within the limit, and as many octets
behind the header. `Message.decode_eq_ok_iff` is all that reading does with them, field by field; what is
accepted, and what is written again, follow from it.

Main result: `message_grammar`.
-/
import ControlPlane.Proofs.Wire.RoundTrip

namespace ControlPlane.Wire

/-- The octet at a place, or zero behind the end. -/
def octetAt (bs : Bytes) (place : Nat) : UInt8 := bs[place]?.getD 0

/-- Octets of payload that the header of a datagram declares: the number in its last two octets, the least
significant first. -/
def declared (bs : Bytes) : Nat := (octetAt bs 4).toNat + 256 * (octetAt bs 5).toNat

/-- The octets that a datagram declares as its payload. -/
def declaredPayload (bs : Bytes) : Bytes := (bs.drop 6).take (declared bs)

/-- Octets that start with the datagram of a message. -/
structure Framed (bs : Bytes) : Prop where
  header : 6 ≤ bs.length
  kind : octetAt bs 0 ≤ 2
  limit : declared bs ≤ 256
  whole : 6 + declared bs ≤ bs.length

theorem value_pair (high low : UInt8) : Bytes.value [high, low] = low.toNat + 256 * high.toNat := by
  simp only [Bytes.value, List.foldl_cons, List.foldl_nil]
  omega

/-- A pair of octets is written as it was read, the least significant first. -/
theorem reverse_bigEndian_value (low high : UInt8) :
    (Bytes.bigEndian 2 (Bytes.value [high, low])).reverse = [low, high] := by
  have same : Bytes.bigEndian 2 (Bytes.value [high, low]) = [high, low] := Bytes.bigEndian_value [high, low]
  rw [same]
  rfl

theorem Kind.exists_ofNumber?_iff {n : UInt8} : (∃ k, ofNumber? n = some k) ↔ n ≤ 2 := by
  constructor
  · rintro ⟨k, h⟩
    rw [← number_of_ofNumber? h]
    cases k <;> decide
  · intro h
    have cases : n = 0 ∨ n = 1 ∨ n = 2 := by grind
    obtain rfl | rfl | rfl := cases
    exacts [⟨.command, rfl⟩, ⟨.register, rfl⟩, ⟨.unregister, rfl⟩]

namespace Message

variable {bs bs' : Bytes} {m m' : Message}

/-- What reading makes of the six octets of a header and the octets behind it. -/
theorem decode_eq_ok_iff {k r c₀ c₁ l₀ l₁ : UInt8} {rest : Bytes} :
    decode (k :: r :: c₀ :: c₁ :: l₀ :: l₁ :: rest) = .ok m ↔
      Kind.ofNumber? k = some m.kind ∧ m.code = .ofNat (Bytes.value [c₁, c₀]) ∧
        Bytes.value [l₁, l₀] ≤ maxPayload ∧ Bytes.value [l₁, l₀] ≤ rest.length ∧
        m.payload = rest.take (Bytes.value [l₁, l₀]) := by
  obtain ⟨kind, code, payload⟩ := m
  cases hk : Kind.ofNumber? k with
  | none => simp [decode, hk]
  | some kind' =>
    simp only [decode, hk]
    by_cases long : maxPayload < Bytes.value [l₁, l₀]
    · simp only [long, if_true]
      exact iff_of_false (by simp) fun h => Nat.not_le.2 long h.2.2.1
    · by_cases short : rest.length < Bytes.value [l₁, l₀]
      · simp only [long, short, if_true, if_false]
        exact iff_of_false (by simp) fun h => Nat.not_le.2 short h.2.2.2.1
      · simp only [long, short, if_false, Except.ok.injEq, Message.mk.injEq, Option.some.injEq,
          Nat.not_lt.1 long, Nat.not_lt.1 short, true_and]
        exact and_congr_right fun _ => and_congr eq_comm eq_comm

theorem header_of_length (h : 6 ≤ bs.length) :
    ∃ k r c₀ c₁ l₀ l₁ rest, bs = k :: r :: c₀ :: c₁ :: l₀ :: l₁ :: rest := by
  match bs, h with
  | k :: r :: c₀ :: c₁ :: l₀ :: l₁ :: rest, _ => exact ⟨k, r, c₀, c₁, l₀, l₁, rest, rfl⟩

theorem length_of_decode (h : decode bs = .ok m) : 6 ≤ bs.length := by
  match bs, h with
  | k :: r :: c₀ :: c₁ :: l₀ :: l₁ :: rest, _ => exact Nat.le_add_left 6 rest.length

/-- **Octets are read as a message exactly when they start with the datagram of one.** -/
theorem decode_isOk_iff : (∃ m, decode bs = .ok m) ↔ Framed bs := by
  constructor
  · rintro ⟨m, h⟩
    have header := length_of_decode h
    obtain ⟨k, r, c₀, c₁, l₀, l₁, rest, rfl⟩ := header_of_length header
    obtain ⟨kind, -, limit, whole, -⟩ := decode_eq_ok_iff.1 h
    rw [value_pair] at limit whole
    refine ⟨header, Kind.exists_ofNumber?_iff.1 ⟨_, kind⟩, limit, ?_⟩
    rw [Nat.add_comm]
    exact Nat.add_le_add_right whole 6
  · rintro ⟨header, kind, limit, whole⟩
    obtain ⟨k, r, c₀, c₁, l₀, l₁, rest, rfl⟩ := header_of_length header
    obtain ⟨kind, hk⟩ := Kind.exists_ofNumber?_iff.2 kind
    have value : declared (k :: r :: c₀ :: c₁ :: l₀ :: l₁ :: rest) = Bytes.value [l₁, l₀] := (value_pair l₁ l₀).symm
    rw [value] at limit whole
    rw [Nat.add_comm] at whole
    exact ⟨⟨kind, _, _⟩, decode_eq_ok_iff.2 ⟨hk, rfl, limit, Nat.le_of_add_le_add_right whole, rfl⟩⟩

/-- What a message says, by the octets that it was read from. -/
theorem fields_of_decode (h : decode bs = .ok m) :
    m.kind.number = octetAt bs 0 ∧ m.code.toNat = (octetAt bs 2).toNat + 256 * (octetAt bs 3).toNat ∧
      m.payload = declaredPayload bs := by
  obtain ⟨k, r, c₀, c₁, l₀, l₁, rest, rfl⟩ := header_of_length (length_of_decode h)
  obtain ⟨kind, code, -, -, payload⟩ := decode_eq_ok_iff.1 h
  refine ⟨Kind.number_of_ofNumber? kind, ?_, ?_⟩
  · have low := c₀.toNat_lt
    have high := c₁.toNat_lt
    rw [code, UInt16.toNat_ofNat', value_pair]
    exact Nat.mod_eq_of_lt (by omega)
  · rw [payload, value_pair]
    rfl

/-- A message that was read is written as it stood, but for the reserved octet. -/
theorem encode_of_decode (h : decode bs = .ok m) : m.encode = (bs.take (6 + declared bs)).set 1 0 := by
  obtain ⟨k, r, c₀, c₁, l₀, l₁, rest, rfl⟩ := header_of_length (length_of_decode h)
  obtain ⟨kind, code, -, whole, payload⟩ := decode_eq_ok_iff.1 h
  have length : m.payload.length = Bytes.value [l₁, l₀] := by rw [payload, List.length_take_of_le whole]
  have number : m.code.toNat = Bytes.value [c₁, c₀] := by
    rw [code, UInt16.toNat_ofNat']
    exact Nat.mod_eq_of_lt (Bytes.value_lt [c₁, c₀])
  have size : 6 + declared (k :: r :: c₀ :: c₁ :: l₀ :: l₁ :: rest) = Bytes.value [l₁, l₀] + 6 := by
    rw [value_pair, Nat.add_comm]
    rfl
  rw [encode, Kind.number_of_ofNumber? kind, number, length, reverse_bigEndian_value, reverse_bigEndian_value,
    payload, size]
  rfl

/-- What stands in the same octets is the same message. -/
theorem decode_congr (framed : Framed bs) (framed' : Framed bs') (kind : octetAt bs 0 = octetAt bs' 0)
    (code : (bs.drop 2).take 2 = (bs'.drop 2).take 2) (payload : declaredPayload bs = declaredPayload bs') :
    decode bs = decode bs' := by
  obtain ⟨m, hm⟩ := decode_isOk_iff.2 framed
  obtain ⟨m', hm'⟩ := decode_isOk_iff.2 framed'
  obtain ⟨k, r, c₀, c₁, l₀, l₁, rest, rfl⟩ := header_of_length framed.header
  obtain ⟨k', r', c₀', c₁', l₀', l₁', rest', rfl⟩ := header_of_length framed'.header
  obtain ⟨rfl, rfl⟩ : c₀ = c₀' ∧ c₁ = c₁' := by simpa using code
  obtain ⟨hk, hc, -, -, -⟩ := decode_eq_ok_iff.1 hm
  obtain ⟨hk', hc', -, -, -⟩ := decode_eq_ok_iff.1 hm'
  have kinds : m.kind = m'.kind := by
    obtain rfl : k = k' := kind
    exact Option.some.inj (hk.symm.trans hk')
  have payloads : m.payload = m'.payload := by
    rw [(fields_of_decode hm).2.2, (fields_of_decode hm').2.2, payload]
  have same : m = m' := by
    cases m
    cases m'
    simp_all
  rw [hm, hm', same]

/-- A datagram is read as its message, whatever comes behind it. -/
theorem decode_encode_append (fits : m.payload.length ≤ maxPayload) (extra : Bytes) :
    decode (m.encode ++ extra) = .ok m := by
  have read := decode_encode fits
  obtain ⟨k, r, c₀, c₁, l₀, l₁, rest, header⟩ := header_of_length (length_of_decode read)
  rw [header] at read ⊢
  obtain ⟨kind, code, limit, whole, payload⟩ := decode_eq_ok_iff.1 read
  refine decode_eq_ok_iff.2 ⟨kind, code, limit, ?_, ?_⟩
  · exact Nat.le_trans whole (by simp)
  · rw [payload]
    exact (List.take_append_of_le_length whole).symm

/-- **Octets are a message exactly when they are framed. It is made of the kind, the code and the declared
payload alone, and its datagram is what they start with, but for the reserved octet. The other way round,
every message within the limit is read from its datagram, whatever comes behind it, and a payload above the
limit makes none.** -/
theorem message_grammar :
    (∀ bs, (∃ m, decode bs = .ok m) ↔ Framed bs) ∧
    (∀ bs m, decode bs = .ok m →
      (m.kind.number = octetAt bs 0 ∧ m.code.toNat = (octetAt bs 2).toNat + 256 * (octetAt bs 3).toNat ∧
        m.payload = declaredPayload bs) ∧
      m.encode = (bs.take (6 + declared bs)).set 1 0) ∧
    (∀ bs bs', Framed bs → Framed bs' → octetAt bs 0 = octetAt bs' 0 →
      (bs.drop 2).take 2 = (bs'.drop 2).take 2 → declaredPayload bs = declaredPayload bs' →
      decode bs = decode bs') ∧
    (∀ kind code payload, payload.length ≤ 256 →
      ofPayload kind code payload = .ok ⟨kind, code, payload⟩ ∧
        ∀ extra, decode (encode ⟨kind, code, payload⟩ ++ extra) = .ok ⟨kind, code, payload⟩) ∧
    (∀ kind code payload, 256 < payload.length →
      ofPayload kind code payload = .error (.parse (.payloadTooLong payload.length))) := by
  refine ⟨fun bs => decode_isOk_iff, fun bs m h => ⟨fields_of_decode h, encode_of_decode h⟩,
    fun bs bs' framed framed' kind code payload => decode_congr framed framed' kind code payload, ?_, ?_⟩
  · intro kind code payload fits
    exact ⟨if_neg (Nat.not_lt.2 fits), fun extra => decode_encode_append fits extra⟩
  · intro kind code payload long
    exact if_pos long

/-- A route command with two octets of payload, a reserved octet that is not zero, and an octet behind it. -/
def sampleDatagram : Bytes := [0, 9, 0x13, 3, 2, 0, 0, 7, 0xFF]

theorem message_grammar_small :
    Framed sampleDatagram ∧ (∃ m, decode sampleDatagram = .ok m) ∧
    encode ⟨.command, 0x0313, [0, 7]⟩ = [0, 0, 0x13, 3, 2, 0, 0, 7] ∧
    decode sampleDatagram = decode [0, 0, 0x13, 3, 2, 0, 0, 7] ∧
    decode (encode ⟨.unregister, 0x0313, [0, 7]⟩ ++ [1, 2, 3]) = .ok ⟨.unregister, 0x0313, [0, 7]⟩ ∧
    ofPayload .command 0x0313 (Bytes.zeros 257) = .error (.parse (.payloadTooLong 257)) := by
  have framed : Framed sampleDatagram := ⟨by decide, by decide, by decide, by decide⟩
  have framed' : Framed [0, 0, 0x13, 3, 2, 0, 0, 7] := ⟨by decide, by decide, by decide, by decide⟩
  have read : decode sampleDatagram = .ok ⟨.command, 0x0313, [0, 7]⟩ :=
    decode_eq_ok_iff.2 ⟨rfl, rfl, by decide, by decide, rfl⟩
  have size : (Bytes.zeros 257).length = 257 := Bytes.length_zeros 257
  obtain ⟨accepted, written, same, back, refused⟩ := message_grammar
  refine ⟨framed, (accepted _).2 framed, ?_, same _ _ framed framed' rfl rfl rfl,
    (back .unregister 0x0313 [0, 7] (by decide)).2 _, ?_⟩
  · exact (written sampleDatagram _ read).2
  · have long : 256 < (Bytes.zeros 257).length := by omega
    rw [refused .command 0x0313 (Bytes.zeros 257) long, size]

end Message

end ControlPlane.Wire
