/-
Records through the wire and back.

A record goes with the commands that carry its type (`Record.Belongs`), and the
sizes of the records tell the types apart: `Record.belongs_iff_size`. Under a
command of its own a canonical record comes back, with the action when the
command has one; under any other code nothing is read but the two sizes. Each
layout gives back what its fields give back (`Layout.Exact.seq`), so there is one
lemma for each kind of field and one chain of them for each record. Names come back as
far as their field carries them, whether the record is canonical or not
(`Route.decode_written`, `decode_written_interface`).

Main result: `record_round_trip`.
-/
import ControlPlane.Wire.Record
import ControlPlane.Proofs.Text.Boundary
import ControlPlane.Proofs.Wire.Naming

namespace ControlPlane.Wire

/-! ## Fields -/

/-- A text that a name field gives back: it has no NUL, and room is left for the
zero octet behind it. -/
structure Named (s : String) : Prop where
  nulFree : '\x00' ∉ s.toList
  fits : s.utf8ByteSize < Layout.nameWidth

theorem named_empty : Named "" := ⟨by decide, by decide⟩

theorem Named.carried {s : String} (h : Named s) : Layout.carried s = s :=
  Layout.carried_eq_self_iff.2 ⟨h.nulFree, .inl h.fits⟩

namespace Layout

variable {α β : Type}

theorem Exact.through {l : Layout α} {into : α → β} {back : β → α} {b : β} (h : l.Exact (back b))
    (inverse : into (back b) = b) : (l.through into back).Exact b := by
  have read : into (l.read (l.write (back b))) = into (back b) := congrArg into h
  exact read.trans inverse

/-- Two fields one behind the other are read as what each is read as. -/
theorem read_seq {l : Layout α} {m : Layout β} {a a' : α} {b b' : β} (ha : l.read (l.write a) = a')
    (hb : m.read (m.write b) = b') : (l.seq m).read ((l.seq m).write (a, b)) = (a', b') := by
  rw [read_seq_write, ha, hb]

theorem read_raw (n : Nat) (bs : Bytes) : (raw n).read ((raw n).write bs) = bs.fit n := rfl

end Layout

/-- The front of an octet string is still there when it was filled up. -/
theorem take_fit {n k : Nat} {bs : Bytes} (h : bs.length = k) (room : k ≤ n) :
    (bs.fit n).take k = bs := by
  subst h
  rw [Bytes.fit, List.take_of_length_le room, List.take_left]

theorem width_le (f : Family) : f.width ≤ 16 := by cases f <;> decide

/-! ## Records -/

namespace Route

theorem family?_flags (f : Option Family) : family? (flags f) = f := by
  rcases f with _ | _ | _ <;> rfl

/-- Whatever route is written, it is read with what its field of the name carries, and with some next hop:
its own one when that is of the route's family. -/
theorem decode_written (r : Route) (action : Action) :
    ∃ hop, decode (r.encode action) = .ok { r with interface := Layout.carried r.interface, nextHop := hop } ∧
      (r.nextHop.family = r.family.getD .v4 → hop = r.nextHop) := by
  have size : (r.encode action).length = Command.route.recordSize := layout.length_write _
  let slot := (IpAddress.slot (r.family.getD r.nextHop.family) r.nextHop).fit 16
  have read : layout.read (r.encode action) = (action.number, r.mtu, r.sourceMac, r.destinationMac,
      Layout.carried r.interface, r.id, flags r.family, slot, r.hits) :=
    Layout.read_seq (Layout.exact_u16 _) <| Layout.read_seq (Layout.exact_u16 _) <|
      Layout.read_seq (Layout.exact_mac _) <| Layout.read_seq (Layout.exact_mac _) <|
      Layout.read_seq (Layout.read_write_name _) <| Layout.read_seq (Layout.exact_u32 _) <|
      Layout.read_seq (Layout.exact_u32 _) <| Layout.read_seq (Layout.read_raw 16 _) <|
      Layout.exact_u32 _
  refine ⟨IpAddress.ofSlot (r.family.getD .v4) (slot.take (r.family.getD .v4).width), ?_, fun family => ?_⟩
  · simp only [decode, size, ne_eq, not_true_eq_false, if_false, read, family?_flags]
  · -- the slot is that of the next hop's own family, whether the route has one or not
    have shown : r.family.getD r.nextHop.family = r.family.getD .v4 := by
      cases h : r.family with
      | none => rw [family, h]; rfl
      | some f => rfl
    have width : (IpAddress.slot (r.family.getD .v4) r.nextHop).length = (r.family.getD .v4).width := by simp
    have hop := IpAddress.ofSlot_slot r.nextHop
    rw [family] at hop
    simp only [slot, shown, take_fit width (width_le _), hop]

theorem decode_encode {r : Route} (name : Named r.interface)
    (family : r.nextHop.family = r.family.getD .v4) (action : Action) :
    decode (r.encode action) = .ok r := by
  obtain ⟨hop, read, same⟩ := decode_written r action
  rw [read, same family, name.carried]

end Route

/-- Both addresses of a tuple are of a family. -/
structure Tuple.Within (t : Tuple) (f : Family) : Prop where
  source : t.source.family = f
  destination : t.destination.family = f

namespace Connection

theorem exact_tuple {t : Tuple} {f : Family} (h : t.Within f) : (Tuple.layout f).Exact t := by
  have source : (Layout.address f).Exact t.source := h.source ▸ Layout.exact_address t.source
  have destination : (Layout.address f).Exact t.destination :=
    h.destination ▸ Layout.exact_address t.destination
  refine Layout.Exact.through ?_ rfl
  exact source.seq <| destination.seq <| (Layout.exact_u16 _).seq <| (Layout.exact_u16 _).seq <|
    (Layout.exact_u32 _).seq <| (Layout.exact_u16 _).seq <| Layout.exact_gap 2

theorem exact_traffic (t : Traffic) : Traffic.layout.Exact t :=
  Layout.Exact.through ((Layout.exact_u32 _).seq (Layout.exact_u64 _)) rfl

/-- The directions and the hop limit's flag do not share a bit. -/
theorem flags_read (d : Directions) (ttl : Bool) :
    Directions.ofFlags? (d.flags ||| (if ttl then ttlFlag else 0)) = some d ∧
      ((d.flags ||| (if ttl then ttlFlag else 0)) &&& ttlFlag != 0) = ttl := by
  cases d <;> cases ttl <;> decide

theorem decode_encode {c : Connection} (orig : c.orig.Within c.family) (reply : c.reply.Within c.family)
    (action : Action) : decode c.family (c.encode action) = .ok c := by
  have size : (c.encode action).length = Command.connectionSize c.family := by
    rw [encode, (layout c.family).length_write]
    cases c.family <;> rfl
  have read : (layout c.family).read (c.encode action) = (action.number, c.protocol, c.flags, (), c.orig,
      c.reply, c.origTraffic, c.replyTraffic) :=
    (Layout.exact_u16 _).seq <| (Layout.exact_u16 _).seq <| (Layout.exact_u16 _).seq <|
      (Layout.exact_gap 2).seq <| (exact_tuple orig).seq <| (exact_tuple reply).seq <|
      (exact_traffic _).seq (exact_traffic _)
  obtain ⟨directions, ttl⟩ := flags_read c.directions c.ttlDecrement
  have flags : Directions.ofFlags? c.flags = some c.directions := directions
  have ttl : (c.flags &&& ttlFlag != 0) = c.ttlDecrement := ttl
  simp only [decode, size, ne_eq, not_true_eq_false, if_false, read, flags, ttl]

end Connection

/-- An interface is read with what its field of the name carries. -/
theorem decode_written_interface (i : Interface) (action : Action) :
    Interface.decode (i.encode action) = .ok { i with name := Layout.carried i.name } := by
  have size : (i.encode action).length = Command.interface.recordSize := Interface.layout.length_write _
  have read : Interface.layout.read (i.encode action) = (action.number, i.flags, i.id, Layout.carried i.name,
      i.mac, (), i.received, i.sent) :=
    Layout.read_seq (Layout.exact_u16 _) <| Layout.read_seq (Layout.exact_u16 _) <|
      Layout.read_seq (Layout.exact_u32 _) <| Layout.read_seq (Layout.read_write_name _) <|
      Layout.read_seq (Layout.exact_mac _) <| Layout.read_seq (Layout.exact_gap 2) <|
      Layout.read_seq (Layout.exact_u32 _) (Layout.exact_u32 _)
  have flags : (i.flags &&& 1 != 0) = i.enabled ∧ (i.flags &&& 2 != 0) = i.promiscuous := by
    rw [Interface.flags]
    cases i.enabled <;> cases i.promiscuous <;> decide
  simp only [Interface.decode, size, ne_eq, not_true_eq_false, if_false, read, flags.1, flags.2]

theorem decode_encode_interface {i : Interface} (name : Named i.name) (action : Action) :
    Interface.decode (i.encode action) = .ok i := by
  rw [decode_written_interface, name.carried]

theorem IdleTimeout.decode_encode (t : IdleTimeout) : decode t.encode = .ok t := by
  have size : t.encode.length = Command.setTimeout.recordSize := layout.length_write _
  have read : layout.read t.encode = (t.protocol, (), t.seconds) :=
    (Layout.exact_u16 _).seq <| (Layout.exact_gap 2).seq (Layout.exact_u32 _)
  simp only [decode, size, ne_eq, not_true_eq_false, if_false, read]

/-- An event is written with its text cut to the room that there is. -/
theorem HealthEvent.encode_eq (e : HealthEvent) :
    e.encode = layout.write (e.id, e.severity.number, UInt8.ofNat (Utf8.cut textRoom e.text).utf8ByteSize,
      Utf8.encode (Utf8.cut textRoom e.text)) := by
  rw [encode, Utf8.take_boundaryBefore, Utf8.boundaryBefore_encode]

theorem HealthEvent.decode_encode {e : HealthEvent} (fits : e.text.utf8ByteSize ≤ textRoom) :
    decode e.encode = .ok e := by
  have size : e.encode.length = Command.healthEvent.recordSize := layout.length_write _
  have length : (Utf8.encode e.text).length = e.text.utf8ByteSize := Utf8.length_encode _
  have count : (UInt8.ofNat (Utf8.encode e.text).length).toNat = (Utf8.encode e.text).length := by
    rw [textRoom] at fits
    exact Utf8.toNat_octet (by omega)
  have text : ((Utf8.encode e.text).fit textRoom).take (Utf8.encode e.text).length = Utf8.encode e.text :=
    take_fit rfl (length ▸ fits)
  have read : layout.read e.encode = (e.id, e.severity.number, UInt8.ofNat (Utf8.encode e.text).length,
      (Utf8.encode e.text).fit textRoom) := by
    rw [encode_eq, Utf8.cut_of_fits fits, ← length]
    exact Layout.read_seq (Layout.exact_u16 _) <| Layout.read_seq (Layout.exact_octet _) <|
      Layout.read_seq (Layout.exact_octet _) <| Layout.read_raw textRoom _
  simp only [decode, size, ne_eq, not_true_eq_false, if_false, read, Severity.ofNumber?_number, count,
    text, Utf8.decode_encode]

/-! ## The envelope -/

theorem Message.decode_encode {m : Message} (fits : m.payload.length ≤ maxPayload) :
    decode m.encode = .ok m := by
  have pair : ∀ n : Nat, Bytes.bigEndian 2 n = [UInt8.ofNat (n / 256), UInt8.ofNat n] := fun n => rfl
  have code : Bytes.value [UInt8.ofNat (m.code.toNat / 256), UInt8.ofNat m.code.toNat] = m.code.toNat := by
    have lt := m.code.toNat_lt
    rw [← pair, Bytes.value_bigEndian, Bytes.span_two, Nat.mod_eq_of_lt lt]
  have length : Bytes.value [UInt8.ofNat (m.payload.length / 256), UInt8.ofNat m.payload.length] =
      m.payload.length := by
    rw [maxPayload] at fits
    rw [← pair, Bytes.value_bigEndian, Bytes.span_two, Nat.mod_eq_of_lt (by omega)]
  have datagram : m.encode = m.kind.number :: 0 :: UInt8.ofNat m.code.toNat ::
      UInt8.ofNat (m.code.toNat / 256) :: UInt8.ofNat m.payload.length ::
      UInt8.ofNat (m.payload.length / 256) :: m.payload := rfl
  rw [datagram]
  simp only [decode, Kind.ofNumber?_number, code, length, if_neg (Nat.not_lt.2 fits), Nat.lt_irrefl,
    if_false, List.take_length, UInt16.ofNat_toNat]

/-- The largest datagram has room for every message, so what a socket cuts off is not read. -/
theorem Message.decode_take (bs : Bytes) : decode (bs.take maxDatagram) = decode bs := by
  match bs with
  | k :: r :: c₀ :: c₁ :: l₀ :: l₁ :: rest =>
    have cut : (k :: r :: c₀ :: c₁ :: l₀ :: l₁ :: rest).take maxDatagram =
        k :: r :: c₀ :: c₁ :: l₀ :: l₁ :: rest.take maxPayload := rfl
    rw [cut]
    simp only [decode]
    cases Kind.ofNumber? k with
    | none => rfl
    | some kind =>
      dsimp only
      by_cases long : maxPayload < Bytes.value [l₁, l₀]
      · simp only [long, if_true]
      · by_cases short : rest.length ≤ maxPayload
        · rw [List.take_of_length_le short]
        · have enough : ¬ rest.length < Bytes.value [l₁, l₀] := by omega
          have kept : ¬ (rest.take maxPayload).length < Bytes.value [l₁, l₀] := by
            rw [List.length_take]
            omega
          simp only [long, kept, enough, if_false, List.take_take]
          rw [Nat.min_eq_left (by omega)]
  | [] | [_] | [_, _] | [_, _, _] | [_, _, _, _] | [_, _, _, _, _] => rfl

theorem action?_of_lead {m : Message} {n : UInt16} {rest : Bytes}
    (h : m.payload = Layout.u16.write n ++ rest) : m.action? = some n := by
  have lead : Layout.u16.write n = [UInt8.ofNat (n.toNat / 256), UInt8.ofNat n.toNat] := rfl
  have back : UInt16.ofNat (Bytes.value (Layout.u16.write n)) = n := Layout.exact_u16 n
  rw [lead] at h back
  simp only [Message.action?, h, List.cons_append, List.nil_append, back]

theorem Reply.length_payload (r : Reply) (code : UInt16) :
    (r.toMessage code).payload.length = r.record.length + 2 := by
  rw [toMessage, List.length_append, Layout.u16.length_write]
  exact Nat.add_comm 2 _

/-- The message of a reply arrives while the record leaves room for the status. -/
theorem Reply.decode_toMessage {r : Reply} (room : r.record.length + 2 ≤ maxPayload) (code : UInt16) :
    Message.decode (r.toMessage code).encode = .ok (r.toMessage code) :=
  Message.decode_encode ((r.length_payload code).trans_le room)

/-- A reply comes back from the message that carries it. -/
theorem Reply.ofMessage_toMessage (r : Reply) (code : UInt16) : ofMessage (r.toMessage code) = .ok r := by
  have lead : (r.toMessage code).action? = some r.status.number := action?_of_lead rfl
  have rest : (r.toMessage code).payload.drop 2 = r.record := rfl
  simp only [ofMessage, lead, Status.ofNumber?_number, rest]

/-! ## Under a code -/

namespace Record

/-- The commands and events that carry the type of a record. A connection's are
those of its family. -/
def Belongs (command : Command) : Record → Prop
  | route _ => command = .route
  | connection c => command = .connection c.family ∨ command = .connectionChange c.family
  | interface _ => command = .interface
  | idleTimeout _ => command = .setTimeout
  | health _ => command = .healthEvent
  | empty => command = .lockSession ∨ command = .unlockSession ∨ ∃ f, command = .reset f

/-- The values that a record's fields have room for. -/
def Canonical : Record → Prop
  | route r => Named r.interface ∧ r.nextHop.family = r.family.getD .v4
  | connection c => c.orig.Within c.family ∧ c.reply.Within c.family
  | interface i => Named i.name
  | idleTimeout _ => True
  | health e => e.text.utf8ByteSize ≤ HealthEvent.textRoom
  | empty => True

/-- Octets of a record. -/
def size : Record → Nat
  | route _ => Command.route.recordSize
  | connection c => Command.connectionSize c.family
  | interface _ => Command.interface.recordSize
  | idleTimeout _ => Command.setTimeout.recordSize
  | health _ => Command.healthEvent.recordSize
  | empty => 0

theorem length_payload (action : Action) (r : Record) : (r.payload action).length = r.size := by
  cases r with
  | route r => exact Route.layout.length_write _
  | connection c =>
    have written : (c.encode action).length = (Connection.layout c.family).width :=
      (Connection.layout c.family).length_write _
    have width : (Connection.layout c.family).width = Command.connectionSize c.family := by
      cases c.family <;> rfl
    exact written.trans width
  | interface i => exact Interface.layout.length_write _
  | idleTimeout t => exact IdleTimeout.layout.length_write _
  | health e => exact HealthEvent.layout.length_write _
  | empty => rfl

/-- A record leaves room for a status in front of it. -/
theorem size_add_two_le (r : Record) : r.size + 2 ≤ maxPayload := by
  cases r with
  | connection c => rw [size]; cases c.family <;> decide
  | _ => rw [size]; decide

/-- No two types of record have the same size, and no two families' connections. -/
theorem belongs_iff_size (command : Command) (r : Record) :
    r.Belongs command ↔ r.size = command.recordSize := by
  cases r with
  | connection c =>
    simp only [Belongs, size]
    cases c.family <;> cases command <;> simp [Command.recordSize, Command.connectionSize, Family.width] <;>
      rename_i f <;> cases f <;> simp
  | _ =>
    cases command <;> simp [Belongs, size, Command.recordSize, Command.connectionSize] <;>
      rename_i f <;> cases f <;> decide

theorem length_payload_le (action : Action) (r : Record) : (r.payload action).length ≤ maxPayload := by
  have room := size_add_two_le r
  rw [length_payload]
  omega

theorem encode_eq (code : UInt16) (action : Action) (r : Record) :
    encode code action r = .ok ⟨.command, code, r.payload action⟩ := by
  rw [encode, Message.ofPayload, if_neg (Nat.not_lt.2 (length_payload_le action r))]

theorem decode_of_size_ne {command : Command} {m : Message} (code : m.code = command.code)
    (size : m.payload.length ≠ command.recordSize) :
    decode m = .error (.malformedRecord m.code command.recordSize m.payload.length) := by
  have known : Command.ofCode? m.code = some command := code ▸ Command.ofCode?_code command
  simp only [decode, known, size, ne_eq, not_false_eq_true, if_true]

/-- A payload with an action starts with its number. -/
theorem payload_leads {command : Command} {r : Record} (belongs : r.Belongs command)
    (leads : command.hasAction = true) (action : Action) :
    ∃ rest, r.payload action = Layout.u16.write action.number ++ rest := by
  cases r with
  | route _ | connection _ | interface _ => exact ⟨_, rfl⟩
  | idleTimeout _ | health _ =>
    rw [Belongs] at belongs
    subst belongs
    exact absurd leads (by decide)
  | empty =>
    obtain rfl | rfl | ⟨f, rfl⟩ := belongs <;> exact absurd leads Bool.false_ne_true

theorem ofPayload_payload {command : Command} {r : Record} (belongs : r.Belongs command)
    (canonical : r.Canonical) (action : Action) : ofPayload command (r.payload action) = .ok r := by
  cases r with
  | route r =>
    rw [Belongs] at belongs
    subst belongs
    simp only [ofPayload, payload, Route.decode_encode canonical.1 canonical.2, Except.map]
  | connection c =>
    obtain rfl | rfl := belongs <;>
      simp only [ofPayload, payload, Connection.decode_encode canonical.1 canonical.2, Except.map]
  | interface i =>
    rw [Belongs] at belongs
    subst belongs
    simp only [ofPayload, payload, decode_encode_interface canonical, Except.map]
  | idleTimeout t =>
    rw [Belongs] at belongs
    subst belongs
    simp only [ofPayload, payload, IdleTimeout.decode_encode, Except.map]
  | health e =>
    rw [Belongs] at belongs
    subst belongs
    simp only [ofPayload, payload, HealthEvent.decode_encode canonical, Except.map]
  | empty =>
    obtain rfl | rfl | ⟨f, rfl⟩ := belongs <;> rfl

/-- Reading a payload under its own command comes down to reading the record. -/
theorem decode_of_read {command : Command} {action : Action} {r r' : Record} (belongs : r.Belongs command)
    (read : ofPayload command (r.payload action) = .ok r') :
    decode ⟨.command, command.code, r.payload action⟩ =
      .ok (if command.hasAction then some action.number else none, r') := by
  have size : (r.payload action).length = command.recordSize := by
    rw [length_payload]
    exact (belongs_iff_size command r).1 belongs
  simp only [decode, Command.ofCode?_code, size, ne_eq, not_true_eq_false, if_false, read, Except.map]
  cases leads : command.hasAction with
  | false => rfl
  | true =>
    obtain ⟨rest, h⟩ := payload_leads belongs leads action
    have number : Message.action? ⟨.command, command.code, r.payload action⟩ = some action.number :=
      action?_of_lead h
    simp only [number]

theorem decode_of_belongs {command : Command} {action : Action} {r : Record}
    (belongs : r.Belongs command) (canonical : r.Canonical) :
    decode ⟨.command, command.code, r.payload action⟩ =
      .ok (if command.hasAction then some action.number else none, r) :=
  decode_of_read belongs (ofPayload_payload belongs canonical action)

theorem decode_of_not_belongs {code : UInt16} {action : Action} {r : Record}
    (foreign : ∀ command, Command.ofCode? code = some command → ¬ r.Belongs command) :
    decode ⟨.command, code, r.payload action⟩ =
      match Command.ofCode? code with
      | none => .error (.parse (.unknownCommand code))
      | some command => .error (.malformedRecord code command.recordSize r.size) := by
  cases known : Command.ofCode? code with
  | none => simp only [decode, known]
  | some command =>
    have size : r.size ≠ command.recordSize := fun h => foreign command known ((belongs_iff_size command r).2 h)
    have other := decode_of_size_ne (m := ⟨.command, code, r.payload action⟩)
      (Command.code_of_ofCode? known).symm (by rw [length_payload]; exact size)
    rw [other, length_payload]

end Record

/-- **A canonical record comes back under every command of its type, alone and in
a datagram, with the action where the command has one. Under any other code it
is refused: by its size, or as an unknown code.** -/
theorem record_round_trip :
    (∀ (command : Command) (action : Action) (r : Record), r.Belongs command → r.Canonical →
      ∃ m, Record.encode command.code action r = .ok m ∧ m.code = command.code ∧
        Message.decode m.encode = .ok m ∧
        Record.decode m = .ok (if command.hasAction then some action.number else none, r)) ∧
    (∀ (code : UInt16) (action : Action) (r : Record),
      (∀ command, Command.ofCode? code = some command → ¬ r.Belongs command) →
      ∃ m, Record.encode code action r = .ok m ∧ m.code = code ∧ Message.decode m.encode = .ok m ∧
        Record.decode m =
          match Command.ofCode? code with
          | none => .error (.parse (.unknownCommand code))
          | some command => .error (.malformedRecord code command.recordSize m.payload.length)) := by
  constructor
  · intro command action r belongs canonical
    refine ⟨_, Record.encode_eq command.code action r, rfl, ?_, Record.decode_of_belongs belongs canonical⟩
    exact Message.decode_encode (Record.length_payload_le action r)
  · intro code action r foreign
    refine ⟨_, Record.encode_eq code action r, rfl, ?_, ?_⟩
    · exact Message.decode_encode (Record.length_payload_le action r)
    · rw [Record.length_payload]
      exact Record.decode_of_not_belongs foreign

/-- A route through an interface with a two octet character in its name. -/
def sampleRoute : Route :=
  { Route.ofId 9 with interface := "ethé0", family := some .v6, nextHop := .v6 1 }

theorem record_round_trip_small :
    (∃ m, Record.encode Command.route.code .deregister (.route sampleRoute) = .ok m ∧
      m.code = Command.route.code ∧ Message.decode m.encode = .ok m ∧
      Record.decode m = .ok (some 1, .route sampleRoute)) ∧
    (∃ m, Record.encode (Command.connection .v6).code .query (.route sampleRoute) = .ok m ∧
      m.code = (Command.connection .v6).code ∧ Message.decode m.encode = .ok m ∧
      Record.decode m = .error (.malformedRecord 0x0414 120 m.payload.length)) := by
  have named : Named sampleRoute.interface := ⟨by decide, by decide⟩
  constructor
  · exact record_round_trip.1 .route .deregister (.route sampleRoute) rfl ⟨named, rfl⟩
  · refine record_round_trip.2 (Command.connection .v6).code .query (.route sampleRoute) ?_
    intro command known belongs
    rw [Command.ofCode?_code, Option.some.injEq] at known
    rw [Record.Belongs, ← known] at belongs
    exact Command.noConfusion belongs

end ControlPlane.Wire
