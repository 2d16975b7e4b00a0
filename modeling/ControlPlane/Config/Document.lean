/-
Configurations as TOML documents.

Reading fills in what is not said, and ignores keys that mean nothing. A section
is a table; its settings may also be listed by place in an array, and a date
stands for a section that says nothing. Writing says everything, but for the ids
and hardware addresses that are not given. Texts are left to a library.
-/
import ControlPlane.Config.Basic
import ControlPlane.Error
import ControlPlane.Net.AddressText
import ControlPlane.Toml.Library

namespace ControlPlane

namespace Config

open Toml (Value)

/-! ## Reading -/

/-- The settings of a section, by key or by place. -/
inductive Section where
  | keyed (entries : List (String × Value))
  | placed (items : List Value)

def Section.ofValue (key : String) : Value → Except ConfigFault Section
  | .table entries => .ok (.keyed entries)
  | .array items => .ok (.placed items)
  | .instant _ => .ok (.keyed [])
  | _ => .error (.invalidSetting key)

/-- What a section says about a setting, which has a place among its settings. -/
def Section.find? (s : Section) (place : Nat) (key : String) : Option Value :=
  match s with
  | keyed entries => entries.lookup key
  | placed items => items[place]?

/-- What a section says about a setting, or what holds otherwise. -/
def Section.get {α : Type} (s : Section) (place : Nat) (key : String)
    (read : String → Value → Except ConfigFault α) (otherwise : α) : Except ConfigFault α :=
  match s.find? place key with
  | none => .ok otherwise
  | some v => read key v

def readString (key : String) : Value → Except ConfigFault String
  | .string s => .ok s
  | _ => .error (.invalidSetting key)

def readBoolean (key : String) : Value → Except ConfigFault Bool
  | .boolean b => .ok b
  | _ => .error (.invalidSetting key)

/-- A number that so many octets can spell. -/
def readNumber (width : Nat) (key : String) : Value → Except ConfigFault Nat
  | .integer n => if 0 ≤ n ∧ n < Bytes.span width then .ok n.toNat else .error (.invalidSetting key)
  | _ => .error (.invalidSetting key)

def readUInt32 (key : String) (v : Value) : Except ConfigFault UInt32 := (readNumber 4 key v).map .ofNat

def readUInt64 (key : String) (v : Value) : Except ConfigFault UInt64 := (readNumber 8 key v).map .ofNat

def readAddress (key : String) (v : Value) : Except ConfigFault SocketAddress := do
  match SocketAddress.ofText? (← readString key v) with
  | some a => .ok a
  | none => .error (.invalidSetting key)

def readEngine (key : String) (v : Value) : Except ConfigFault EngineSettings := do
  let s ← Section.ofValue key v
  let d := EngineSettings.standard
  return { listen := ← s.get 0 "listen" readAddress d.listen
           agingInterval := ← s.get 1 "aging_interval" readUInt64 d.agingInterval
           commandTimeout := ← s.get 2 "command_timeout_ms" readUInt64 d.commandTimeout }

def readLogging (key : String) (v : Value) : Except ConfigFault LoggingSettings := do
  let s ← Section.ofValue key v
  let d := LoggingSettings.standard
  return { level := ← s.get 0 "level" readString d.level, format := ← s.get 1 "format" readString d.format }

def readTimeouts (key : String) (v : Value) : Except ConfigFault TimeoutSettings := do
  let s ← Section.ofValue key v
  let d := TimeoutSettings.standard
  return { tcp := ← s.get 0 "tcp" readUInt32 d.tcp, udp := ← s.get 1 "udp" readUInt32 d.udp,
           other := ← s.get 2 "other" readUInt32 d.other }

/-- The settings of an interface, whose name has to be given. -/
def readInterface (key : String) (v : Value) : Except ConfigFault InterfaceSettings := do
  let s ← Section.ofValue key v
  let name ← match s.find? 0 "name" with
    | some v => readString "name" v
    | none => .error (.invalidSetting "name")
  let d := InterfaceSettings.named name
  return { name
           id := ← s.get 1 "id" (fun key v => (readUInt32 key v).map some) d.id
           mac := ← s.get 2 "mac" (fun key v => (readString key v).map some) d.mac
           enabled := ← s.get 3 "enabled" readBoolean d.enabled
           promiscuous := ← s.get 4 "promiscuous" readBoolean d.promiscuous }

def readInterfaces (key : String) : Value → Except ConfigFault (List InterfaceSettings)
  | .array vs => vs.mapM (readInterface key)
  | _ => .error (.invalidSetting key)

/-- The configuration that the entries of a document's root table describe. -/
def ofEntries (entries : List (String × Value)) : Except ConfigFault Config := do
  let s := Section.keyed entries
  let d := Config.standard
  return { engine := ← s.get 0 "engine" readEngine d.engine
           logging := ← s.get 1 "logging" readLogging d.logging
           timeouts := ← s.get 2 "timeouts" readTimeouts d.timeouts
           interfaces := ← s.get 3 "interfaces" readInterfaces d.interfaces }

/-- The configuration that a text describes. -/
def parse (library : Toml.Library) (text : String) : Except Error Config :=
  match library.read text with
  | none => .error (.config .malformedDocument)
  | some entries =>
    match ofEntries entries with
    | .ok c => .ok c
    | .error fault => .error (.config fault)

/-! ## Writing -/

/-- A number as a value, which may be too large for a document. -/
def number (key : String) (n : Nat) : Except ConfigFault Value :=
  if (n : Int) ≤ Value.maxInteger then .ok (.integer n) else .error (.unrepresentable key)

def engineValue (e : EngineSettings) : Except ConfigFault Value := do
  return .table [("listen", .string e.listen.render),
    ("aging_interval", ← number "aging_interval" e.agingInterval.toNat),
    ("command_timeout_ms", ← number "command_timeout_ms" e.commandTimeout.toNat)]

def loggingValue (l : LoggingSettings) : Value := .table [("level", .string l.level), ("format", .string l.format)]

def timeoutsValue (t : TimeoutSettings) : Except ConfigFault Value := do
  return .table [("tcp", ← number "tcp" t.tcp.toNat), ("udp", ← number "udp" t.udp.toNat),
    ("other", ← number "other" t.other.toNat)]

/-- The value of an interface. An id or hardware address that is not given is left out. -/
def interfaceValue (s : InterfaceSettings) : Except ConfigFault Value := do
  let id ← match s.id with
    | none => pure []
    | some n => do pure [("id", ← number "id" n.toNat)]
  return .table <| ("name", .string s.name) :: id ++ (s.mac.map fun mac => ("mac", Value.string mac)).toList ++
    [("enabled", .boolean s.enabled), ("promiscuous", .boolean s.promiscuous)]

/-- The entries of the root table that describes a configuration. -/
def toEntries (c : Config) : Except ConfigFault (List (String × Value)) := do
  return [("engine", ← engineValue c.engine), ("logging", loggingValue c.logging),
    ("timeouts", ← timeoutsValue c.timeouts), ("interfaces", .array (← c.interfaces.mapM interfaceValue))]

/-- The text that describes a configuration. -/
def render (library : Toml.Library) (c : Config) : Except Error String :=
  match c.toEntries with
  | .error fault => .error (.config fault)
  | .ok entries =>
    match library.write entries with
    | none => .error (.config .unwritableDocument)
    | some text => .ok text

end Config

end ControlPlane
