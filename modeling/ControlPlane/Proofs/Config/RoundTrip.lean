/-
Configurations as documents, there and back.

What is written is a document of sections (`sectioned_entries`), every setting of which is read
as it was (`ofEntries_entries`), in whatever order a library gives the keys back
(`ofEntries_same`). A document can hold a configuration when its two long numbers fit and an
IPv4 address has no zone (`Representable`), and whatever was read is of that kind
(`representable_of_parse`), so that writing it and reading it again gives the same.
-/
import ControlPlane.Config.Document
import ControlPlane.Proofs.Interfaces.Table
import ControlPlane.Proofs.Net.AddressText
import ControlPlane.Proofs.Toml.Library

namespace ControlPlane

open Toml (Value Flat Library Sectioned)

/-! ## What is written -/

namespace EngineSettings

def entries (e : EngineSettings) : List (String × Value) :=
  [("listen", .string e.listen.render), ("aging_interval", .integer e.agingInterval.toNat),
    ("command_timeout_ms", .integer e.commandTimeout.toNat)]

/-- A document can hold the settings: its numbers are not too large for one, and an IPv4 address has no zone. -/
structure Representable (e : EngineSettings) : Prop where
  aging : (e.agingInterval.toNat : Int) ≤ Value.maxInteger
  timeout : (e.commandTimeout.toNat : Int) ≤ Value.maxInteger
  zone : e.listen.ip.family = .v4 → e.listen.zone = 0

end EngineSettings

def LoggingSettings.entries (l : LoggingSettings) : List (String × Value) :=
  [("level", .string l.level), ("format", .string l.format)]

def TimeoutSettings.entries (t : TimeoutSettings) : List (String × Value) :=
  [("tcp", .integer t.tcp.toNat), ("udp", .integer t.udp.toNat), ("other", .integer t.other.toNat)]

def InterfaceSettings.entries (s : InterfaceSettings) : List (String × Value) :=
  ("name", .string s.name) :: (s.id.map fun n => ("id", Value.integer n.toNat)).toList ++
    (s.mac.map fun mac => ("mac", Value.string mac)).toList ++
    [("enabled", .boolean s.enabled), ("promiscuous", .boolean s.promiscuous)]

namespace Config

variable {c : Config}

/-- The entries of the root table of a configuration. -/
def entries (c : Config) : List (String × Value) :=
  [("engine", .table c.engine.entries), ("logging", .table c.logging.entries), ("timeouts", .table c.timeouts.entries),
    ("interfaces", .array (c.interfaces.map fun s => .table s.entries))]

theorem number_eq {key : String} {n : Nat} (h : (n : Int) ≤ Value.maxInteger) : number key n = .ok (.integer n) :=
  if_pos h

theorem toNat_le_maxInteger (n : UInt32) : (n.toNat : Int) ≤ Value.maxInteger := by
  have := n.toNat_lt
  unfold Value.maxInteger
  omega

theorem interfaceValue_eq (s : InterfaceSettings) : interfaceValue s = .ok (.table s.entries) := by
  obtain ⟨name, id, mac, enabled, promiscuous⟩ := s
  cases id with
  | none => rfl
  | some n =>
    simp [interfaceValue, number_eq (toNat_le_maxInteger n), InterfaceSettings.entries, bind, Except.bind, pure,
      Except.pure]

theorem toEntries_eq (h : c.engine.Representable) : c.toEntries = .ok c.entries := by
  have interfaces : c.interfaces.mapM interfaceValue = .ok (c.interfaces.map fun s => .table s.entries) := by
    rw [funext interfaceValue_eq]
    exact List.mapM_pure
  simp only [toEntries, engineValue, timeoutsValue, number_eq h.aging, number_eq h.timeout,
    number_eq (toNat_le_maxInteger _), interfaces, bind, Except.bind, pure, Except.pure]
  rfl

theorem plain_natural {n : Nat} (h : (n : Int) ≤ Value.maxInteger) : Value.Plain (.integer n) :=
  .integer (by unfold Value.minInteger; omega) h

theorem plain_toNat (n : UInt32) : Value.Plain (.integer n.toNat) := plain_natural (toNat_le_maxInteger n)

theorem flat_engine {e : EngineSettings} (h : e.Representable) : Flat e.entries where
  different := by simp [EngineSettings.entries]
  plain := by
    simp only [EngineSettings.entries, List.forall_mem_cons]
    exact ⟨⟨by decide, .string _⟩, ⟨by decide, plain_natural h.aging⟩,
      ⟨by decide, plain_natural h.timeout⟩, List.forall_mem_nil _⟩

theorem flat_logging (l : LoggingSettings) : Flat l.entries where
  different := by simp [LoggingSettings.entries]
  plain := by
    simp only [LoggingSettings.entries, List.forall_mem_cons]
    exact ⟨⟨by decide, .string _⟩, ⟨by decide, .string _⟩, List.forall_mem_nil _⟩

theorem flat_timeouts (t : TimeoutSettings) : Flat t.entries where
  different := by simp [TimeoutSettings.entries]
  plain := by
    simp only [TimeoutSettings.entries, List.forall_mem_cons]
    exact ⟨⟨by decide, plain_toNat _⟩, ⟨by decide, plain_toNat _⟩, ⟨by decide, plain_toNat _⟩, List.forall_mem_nil _⟩

theorem flat_interface (s : InterfaceSettings) : Flat s.entries where
  different := by
    obtain ⟨name, id, mac, enabled, promiscuous⟩ := s
    cases id <;> cases mac <;> simp [InterfaceSettings.entries]
  plain := by
    obtain ⟨name, id, mac, enabled, promiscuous⟩ := s
    have bareId : Toml.Statement.IsBare "id" := by decide
    have bareMac : Toml.Statement.IsBare "mac" := by decide
    simp only [InterfaceSettings.entries, List.forall_mem_append, List.forall_mem_cons]
    refine ⟨⟨⟨⟨by decide, .string _⟩, ?_⟩, ?_⟩, ⟨by decide, .boolean _⟩, ⟨by decide, .boolean _⟩,
      List.forall_mem_nil _⟩
    · cases id with
      | none => exact List.forall_mem_nil _
      | some n => exact List.forall_mem_singleton.2 ⟨bareId, plain_toNat n⟩
    · cases mac with
      | none => exact List.forall_mem_nil _
      | some mac => exact List.forall_mem_singleton.2 ⟨bareMac, .string mac⟩

theorem sectional_interfaces (ss : List InterfaceSettings) :
    Value.Sectional (.array (ss.map fun s => .table s.entries)) := by
  by_cases empty : ss = []
  · rw [empty]
    exact .plain .empty
  · have filled : ss.map InterfaceSettings.entries ≠ [] := by simpa using empty
    rw [show (ss.map fun s => Value.table s.entries) = (ss.map InterfaceSettings.entries).map .table by
      rw [List.map_map]; rfl]
    refine .tables filled fun kvs hk => ?_
    obtain ⟨s, -, rfl⟩ := List.mem_map.1 hk
    exact flat_interface s

/-- A configuration is written as a document of sections. -/
theorem sectioned_entries (h : c.engine.Representable) : Sectioned c.entries where
  different := by simp [entries]
  parts := by
    simp only [entries, List.forall_mem_cons]
    exact ⟨⟨by decide, .table (flat_engine h)⟩, ⟨by decide, .table (flat_logging _)⟩,
      ⟨by decide, .table (flat_timeouts _)⟩, ⟨by decide, sectional_interfaces _⟩, List.forall_mem_nil _⟩

/-! ## What is read -/

@[simp] theorem ok_bind {ε α β : Type} (a : α) (f : α → Except ε β) : (Except.ok a >>= f) = f a := rfl

section Get

variable {α : Type} {key k : String} {v : Value} {entries : List (String × Value)} {place : Nat}
  {read : String → Value → Except ConfigFault α} {otherwise : α}

@[simp] theorem get_nil : (Section.keyed []).get place key read otherwise = .ok otherwise := rfl

@[simp] theorem get_self : (Section.keyed ((key, v) :: entries)).get place key read otherwise = read key v := by
  simp [Section.get, Section.find?]

theorem get_other (other : key ≠ k) : (Section.keyed ((k, v) :: entries)).get place key read otherwise =
    (Section.keyed entries).get place key read otherwise := by
  simp [Section.get, Section.find?, List.lookup_cons, beq_eq_false_iff_ne.2 other]

end Get

theorem readNumber_natural {width n : Nat} (key : String) (h : n < Bytes.span width) :
    readNumber width key (.integer n) = .ok n := by
  simp [readNumber, h]

theorem readUInt32_toNat (key : String) (n : UInt32) : readUInt32 key (.integer n.toNat) = .ok n := by
  rw [readUInt32, readNumber_natural key (by rw [Bytes.span_four]; exact n.toNat_lt), Except.map, UInt32.ofNat_toNat]

theorem readUInt64_toNat (key : String) (n : UInt64) : readUInt64 key (.integer n.toNat) = .ok n := by
  rw [readUInt64, readNumber_natural key (by rw [Bytes.span_eight]; exact n.toNat_lt), Except.map, UInt64.ofNat_toNat]

theorem readAddress_render (key : String) {a : SocketAddress} (zone : a.ip.family = .v4 → a.zone = 0) :
    readAddress key (.string a.render) = .ok a := by
  simp only [readAddress, readString, bind, Except.bind, SocketAddress.ofText?_render a zone]

theorem readEngine_entries (key : String) {e : EngineSettings} (h : e.Representable) :
    readEngine key (.table e.entries) = .ok e := by
  rw [readEngine, Section.ofValue, ok_bind]
  simp (disch := decide) only [EngineSettings.entries, get_self, get_other, readAddress_render _ h.zone,
    readUInt64_toNat, ok_bind]
  rfl

theorem readLogging_entries (key : String) (l : LoggingSettings) : readLogging key (.table l.entries) = .ok l := by
  rw [readLogging, Section.ofValue, ok_bind]
  simp (disch := decide) only [LoggingSettings.entries, get_self, get_other, readString, ok_bind]
  rfl

theorem readTimeouts_entries (key : String) (t : TimeoutSettings) : readTimeouts key (.table t.entries) = .ok t := by
  rw [readTimeouts, Section.ofValue, ok_bind]
  simp (disch := decide) only [TimeoutSettings.entries, get_self, get_other, readUInt32_toNat, ok_bind]
  rfl

theorem readInterface_entries (key : String) (s : InterfaceSettings) :
    readInterface key (.table s.entries) = .ok s := by
  obtain ⟨name, id, mac, enabled, promiscuous⟩ := s
  have named : ∀ es, (Section.keyed (("name", .string name) :: es)).find? 0 "name" = some (.string name) :=
    fun _ => rfl
  rw [readInterface, Section.ofValue, ok_bind]
  cases id <;> cases mac <;>
    simp (disch := decide) only [InterfaceSettings.entries, InterfaceSettings.named, Option.map, Option.toList,
      List.append_nil, List.nil_append, List.cons_append, named, get_nil, get_self, get_other, readString, readBoolean,
      readUInt32_toNat, ok_bind, Except.map] <;>
    rfl

theorem readInterfaces_entries (key : String) (ss : List InterfaceSettings) :
    readInterfaces key (.array (ss.map fun s => .table s.entries)) = .ok ss := by
  have each : (readInterface key ∘ fun s : InterfaceSettings => Value.table s.entries) = pure :=
    funext (readInterface_entries key)
  rw [readInterfaces, List.mapM_map, each]
  exact (List.mapM_pure (f := id)).trans (by simp; rfl)

/-- Every setting is read as it was. -/
theorem ofEntries_entries (h : c.engine.Representable) : ofEntries c.entries = .ok c := by
  rw [ofEntries, entries]
  simp (disch := decide) only [get_self, get_other, readEngine_entries _ h, readLogging_entries, readTimeouts_entries,
    readInterfaces_entries, ok_bind]
  rfl

/-! ## In whatever order -/

/-- Sections that differ at most in the order of keys. -/
inductive Section.Same : Section → Section → Prop where
  | keyed {es fs : List (String × Value)} (each : ∀ k, Option.Rel Value.Same (es.lookup k) (fs.lookup k)) :
      Same (.keyed es) (.keyed fs)
  | placed {vs ws : List Value} (each : List.Forall₂ Value.Same vs ws) : Same (.placed vs) (.placed ws)

section Same

variable {α : Type} {key : String} {v w : Value} {s s' : Section}

theorem rel_getElem? {vs ws : List Value} (h : List.Forall₂ Value.Same vs ws) (i : Nat) :
    Option.Rel Value.Same vs[i]? ws[i]? := by
  induction h generalizing i with
  | nil => exact .none
  | cons first _ ih =>
    cases i with
    | zero => exact .some first
    | succ i => simpa using ih i

theorem find?_same (h : s.Same s') (place : Nat) (key : String) :
    Option.Rel Value.Same (s.find? place key) (s'.find? place key) := by
  cases h with
  | keyed each => exact each key
  | placed each => exact rel_getElem? each place

/-- A setting is the same in both, if its values are read alike. -/
theorem get_same {read : String → Value → Except ConfigFault α} {otherwise : α} (h : s.Same s')
    (alike : ∀ v w, v.Same w → read key v = read key w) (place : Nat) :
    s.get place key read otherwise = s'.get place key read otherwise := by
  have found := find?_same h place key
  rw [Section.get, Section.get]
  generalize s.find? place key = a, s'.find? place key = b at found
  cases found with
  | none => rfl
  | some same => exact alike _ _ same

theorem get_some_same {read : String → Value → Except ConfigFault α} {otherwise : Option α} (h : s.Same s')
    (alike : ∀ v w, v.Same w → read key v = read key w) (place : Nat) :
    s.get place key (fun key v => (read key v).map some) otherwise =
      s'.get place key (fun key v => (read key v).map some) otherwise :=
  get_same h (fun v w same => congrArg (Except.map some) (alike v w same)) place

/-- What is read of a section is the same, if sections are read alike. -/
theorem section_same {f : Section → Except ConfigFault α} (alike : ∀ s s' : Section, s.Same s' → f s = f s')
    (h : v.Same w) : (Section.ofValue key v >>= f) = (Section.ofValue key w >>= f) := by
  cases h with
  | refl => rfl
  | array each => exact alike _ _ (.placed each)
  | table each => exact alike _ _ (.keyed each)

theorem readString_same (h : v.Same w) : readString key v = readString key w := by
  cases h <;> rfl

theorem readBoolean_same (h : v.Same w) : readBoolean key v = readBoolean key w := by
  cases h <;> rfl

theorem readNumber_same {width : Nat} (h : v.Same w) : readNumber width key v = readNumber width key w := by
  cases h <;> rfl

theorem readUInt32_same (h : v.Same w) : readUInt32 key v = readUInt32 key w := by
  rw [readUInt32, readUInt32, readNumber_same h]

theorem readUInt64_same (h : v.Same w) : readUInt64 key v = readUInt64 key w := by
  rw [readUInt64, readUInt64, readNumber_same h]

theorem readAddress_same (h : v.Same w) : readAddress key v = readAddress key w := by
  rw [readAddress, readAddress, readString_same h]

theorem readEngine_same (h : v.Same w) : readEngine key v = readEngine key w :=
  section_same (fun _ _ h => by
    simp only [get_same h fun _ _ => readAddress_same, get_same h fun _ _ => readUInt64_same]) h

theorem readLogging_same (h : v.Same w) : readLogging key v = readLogging key w :=
  section_same (fun _ _ h => by simp only [get_same h fun _ _ => readString_same]) h

theorem readTimeouts_same (h : v.Same w) : readTimeouts key v = readTimeouts key w :=
  section_same (fun _ _ h => by simp only [get_same h fun _ _ => readUInt32_same]) h

theorem readInterface_same (h : v.Same w) : readInterface key v = readInterface key w := by
  refine section_same (fun s s' h => ?_) h
  have named := find?_same h 0 "name"
  simp only [get_some_same h fun _ _ => readUInt32_same, get_some_same h fun _ _ => readString_same,
    get_same h fun _ _ => readBoolean_same]
  generalize s.find? 0 "name" = a, s'.find? 0 "name" = b at named
  cases named with
  | none => rfl
  | some same => simp only [readString_same same]

theorem readInterfaces_same (h : v.Same w) : readInterfaces key v = readInterfaces key w := by
  cases h with
  | refl => rfl
  | table => rfl
  | array each =>
    rw [readInterfaces, readInterfaces]
    induction each with
    | nil => rfl
    | cons first _ ih => rw [List.mapM_cons, List.mapM_cons, readInterface_same first, ih]

/-- What is read of a document does not hang on the order of keys. -/
theorem ofEntries_same {es fs : List (String × Value)} (h : Value.Same (.table es) (.table fs)) :
    ofEntries es = ofEntries fs := by
  have same : Section.Same (.keyed es) (.keyed fs) := .keyed h.lookup
  simp only [ofEntries, get_same same fun _ _ => readEngine_same, get_same same fun _ _ => readLogging_same,
    get_same same fun _ _ => readTimeouts_same, get_same same fun _ _ => readInterfaces_same]

end Same

section

variable {library : Library} (faithful : library.Faithful)
include faithful

/-- What is written is read as it was. -/
theorem parse_render (h : c.engine.Representable) :
    ∃ text, c.render library = .ok text ∧ parse library text = .ok c := by
  obtain ⟨text, es, written, read, same⟩ := faithful.written _ (sectioned_entries h)
  refine ⟨text, by simp only [render, toEntries_eq h, written], ?_⟩
  have made := ofEntries_entries h
  rw [ofEntries_same same] at made
  simp only [parse, read, made]

end

/-! ## What can be read -/

/-- All integers that a section says something with are within the limits of a document. -/
def Section.Bounded : Section → Prop
  | keyed entries => ∀ e ∈ entries, e.2.Bounded
  | placed items => ∀ v ∈ items, v.Bounded

theorem bounded_find? {s : Section} {place : Nat} {key : String} {v : Value} (h : s.Bounded)
    (found : s.find? place key = some v) : v.Bounded := by
  cases s with
  | keyed entries =>
    obtain ⟨front, behind, rfl, -⟩ := List.lookup_eq_some_iff.1 found
    exact h (key, v) (by simp)
  | placed items => exact h v (List.mem_of_getElem? found)

theorem bounded_ofValue {key : String} {v : Value} {s : Section} (h : v.Bounded)
    (made : Section.ofValue key v = .ok s) : s.Bounded := by
  cases h with
  | table each =>
    cases made
    exact each
  | array each =>
    cases made
    exact each
  | instant =>
    cases made
    exact List.forall_mem_nil _
  | string | integer | boolean | float => cases made

/-- What holds of the default, and of whatever is read of a value within the limits, holds of a setting. -/
theorem of_get {α : Type} {P : α → Prop} {s : Section} {place : Nat} {key : String}
    {read : String → Value → Except ConfigFault α} {otherwise a : α} (bounded : s.Bounded) (default : P otherwise)
    (each : ∀ v a, v.Bounded → read key v = .ok a → P a) (h : s.get place key read otherwise = .ok a) : P a := by
  rw [Section.get] at h
  split at h
  · cases h
    exact default
  · rename_i v found
    exact each v a (bounded_find? bounded found) h

theorem readUInt64_le {key : String} {v : Value} {n : UInt64} (bounded : v.Bounded) (h : readUInt64 key v = .ok n) :
    (n.toNat : Int) ≤ Value.maxInteger := by
  cases bounded with
  | @integer m least most =>
    simp only [readUInt64, readNumber] at h
    split at h
    · rename_i range
      cases h
      have reduced : m.toNat % 2 ^ 64 ≤ m.toNat := Nat.mod_le _ _
      rw [UInt64.toNat_ofNat']
      omega
    · cases h
  | string | boolean | float | instant | array | table => cases h

theorem readAddress_zone {key : String} {v : Value} {a : SocketAddress} (h : readAddress key v = .ok a) :
    a.ip.family = .v4 → a.zone = 0 := by
  obtain ⟨text, -, read⟩ := bind_eq_ok_iff.1 h
  split at read
  · rename_i b spelled
    cases read
    exact SocketAddress.zone_of_ofText? spelled
  · cases read

theorem representable_standard : EngineSettings.standard.Representable := ⟨by decide, by decide, fun _ => rfl⟩

theorem readEngine_representable {key : String} {v : Value} {e : EngineSettings} (bounded : v.Bounded)
    (h : readEngine key v = .ok e) : e.Representable := by
  obtain ⟨s, made, h⟩ := bind_eq_ok_iff.1 h
  have inside := bounded_ofValue bounded made
  obtain ⟨listen, address, h⟩ := bind_eq_ok_iff.1 h
  obtain ⟨aging, first, h⟩ := bind_eq_ok_iff.1 h
  obtain ⟨timeout, second, same⟩ := bind_eq_ok_iff.1 h
  cases same
  refine ⟨?_, ?_, ?_⟩
  · exact of_get (P := fun n => (n.toNat : Int) ≤ Value.maxInteger) inside representable_standard.aging
      (fun _ _ => readUInt64_le) first
  · exact of_get (P := fun n => (n.toNat : Int) ≤ Value.maxInteger) inside representable_standard.timeout
      (fun _ _ => readUInt64_le) second
  · exact of_get (P := fun a => a.ip.family = .v4 → a.zone = 0) inside representable_standard.zone
      (fun _ _ _ => readAddress_zone) address

/-- A document can hold whatever was read from one. -/
theorem representable_of_parse {library : Library} (faithful : library.Faithful) {text : String}
    (h : parse library text = .ok c) : c.engine.Representable := by
  rw [parse] at h
  split at h
  · cases h
  · rename_i entries read
    have bounded := faithful.bounded _ _ read
    split at h
    · rename_i made
      cases h
      obtain ⟨engine, first, h⟩ := bind_eq_ok_iff.1 made
      obtain ⟨_, -, h⟩ := bind_eq_ok_iff.1 h
      obtain ⟨_, -, h⟩ := bind_eq_ok_iff.1 h
      obtain ⟨_, -, same⟩ := bind_eq_ok_iff.1 h
      cases same
      exact of_get (P := EngineSettings.Representable) (s := .keyed entries) bounded representable_standard
        (fun _ _ => readEngine_representable) first
    · cases h

/-- **A configuration that a document can hold comes back from the text it is written as**, and whatever a text
describes can be written and read again, with a library that writes documents of sections faithfully. -/
theorem render_parse_round_trip {library : Library} (faithful : library.Faithful) :
    (∀ c : Config, c.engine.agingInterval.toNat ≤ 2 ^ 63 - 1 → c.engine.commandTimeout.toNat ≤ 2 ^ 63 - 1 →
      c.engine.listen.zone = 0 → ∃ text, c.render library = .ok text ∧ parse library text = .ok c) ∧
    ∀ (text : String) (c : Config), parse library text = .ok c →
      ∃ text', c.render library = .ok text' ∧ parse library text' = .ok c := by
  refine ⟨fun c aging timeout zone => parse_render faithful ⟨?_, ?_, fun _ => zone⟩, fun text c h =>
    parse_render faithful (representable_of_parse faithful h)⟩
  · unfold Value.maxInteger
    omega
  · unfold Value.maxInteger
    omega

/-- Texts that need each of the forms of quoting, numbers at their limits, and interfaces with and without ids and
hardware addresses. -/
def awkward : Config where
  engine := { listen := { ip := .v6 0xFE800000000000000000000000000001, port := 5400 }, agingInterval := 0,
              commandTimeout := 9223372036854775807 }
  logging := { level := "a \"quoted\" 'level'", format := "two\nlines\\" }
  timeouts := .standard
  interfaces := [{ InterfaceSettings.named "" with id := some 4294967295 },
    { name := "eth\r'''\"\"\"", id := none, mac := some "02:00", enabled := false, promiscuous := true }]

/-- The standard configuration, but for an address with a zone. -/
def zoned : Config :=
  { standard with
    engine := { EngineSettings.standard with
      listen := { ip := .v6 0xFE800000000000000000000000000001, port := 80, zone := 3 } } }

theorem render_parse_round_trip_small :
    Library.standard.Faithful ∧
      (∃ text, awkward.render .standard = .ok text ∧ parse .standard text = .ok awkward) ∧
      ∃ text', zoned.render .standard = .ok text' ∧ parse .standard text' = .ok zoned := by
  have faithful := Library.faithful_standard
  obtain ⟨written, read⟩ := render_parse_round_trip faithful
  exact ⟨faithful, written awkward (by decide) (by decide) rfl,
    read "[engine]\nlisten = \"[fe80::1%3]:80\"" zoned (by decide +kernel)⟩

end Config

end ControlPlane
