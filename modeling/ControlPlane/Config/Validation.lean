/-
What is wrong with a configuration, and what is only doubtful about it.

Errors keep an engine from being started; warnings do not. Both come in the order
of the settings, and an interface's in the order name, repetition, id, hardware
address.
-/
import ControlPlane.Config.Basic
import ControlPlane.Error

namespace ControlPlane

namespace Config

/-- Something doubtful. -/
inductive Warning where
  | ephemeralPort
  | agingDisabled
  | unknownLevel (level : String)
  | unknownFormat (format : String)
  | noInterfaces
  deriving DecidableEq, Repr

/-- Something that cannot be. -/
inductive Fault where
  | noCommandTimeout
  | noIdleTimeout (which : String)
  | emptyName (place : Nat)
  | longName (name : String)
  | duplicateName (name : String)
  | duplicateId (name : String) (id : UInt32)
  | multicastMac (name mac : String)
  | invalidMac (name mac : String)
  deriving DecidableEq, Repr

/-- Everything that is said of a configuration. -/
structure Diagnosis where
  warnings : List Warning
  errors : List Fault
  deriving DecidableEq, Repr

def Warning.message : Warning → String
  | ephemeralPort => "engine.listen: port 0 binds an ephemeral port clients cannot know"
  | agingDisabled => "engine.aging_interval: 0 disables conntrack aging"
  | unknownLevel level => "logging.level: unknown level '" ++ level ++ "', using info"
  | unknownFormat format => "logging.format: unknown format '" ++ format ++ "', using pretty"
  | noInterfaces => "no interfaces defined, every route registration will fail"

/-- Octets that the name of an interface may have. -/
def maxName : Nat := 15

def Fault.message : Fault → String
  | noCommandTimeout => "engine.command_timeout_ms: must be greater than 0"
  | noIdleTimeout which => "timeouts." ++ which ++ ": must be greater than 0"
  | emptyName place => "interfaces[" ++ toString place ++ "]: name must not be empty"
  | longName name => "interfaces." ++ name ++ ": name longer than " ++ toString maxName ++ " bytes"
  | duplicateName name => "interfaces." ++ name ++ ": defined more than once"
  | duplicateId name id => "interfaces." ++ name ++ ": id " ++ toString id.toNat ++ " already in use"
  | multicastMac name mac => "interfaces." ++ name ++ ": mac " ++ mac ++ " is multicast"
  | invalidMac name mac => "interfaces." ++ name ++ ": invalid mac '" ++ mac ++ "'"

def Diagnosis.hasErrors (d : Diagnosis) : Bool := !d.errors.isEmpty

/-- The levels, which are known in either case of their letters. -/
def levels : List String := ["error", "warn", "info", "debug", "trace"]

def formats : List String := ["pretty", "compact", "json"]

/-- One item when a condition holds. -/
def whenever {α : Type} (b : Bool) (a : α) : List α := if b then [a] else []

/-- What is wrong with a name by itself. -/
def nameFaults (place : Nat) (name : String) : List Fault :=
  if name.isEmpty then [.emptyName place] else whenever (maxName < name.utf8ByteSize) (.longName name)

/-- What is wrong with a hardware address. -/
def macFaults (name : String) : Option String → List Fault
  | none => []
  | some text =>
    match Mac.ofText text with
    | .ok m => whenever m.isMulticast (.multicastMac name text)
    | .error _ => [.invalidMac name text]

/-- What is wrong with interfaces, the first of which has a place, behind others
whose names and ids are taken. -/
def interfaceFaults (names : List String) (ids : List UInt32) (place : Nat) :
    List InterfaceSettings → List Fault
  | [] => []
  | s :: rest =>
    let id := s.effectiveId place
    nameFaults place s.name ++ whenever (names.contains s.name) (.duplicateName s.name) ++
      whenever (ids.contains id) (.duplicateId s.name id) ++ macFaults s.name s.mac ++
      interfaceFaults (s.name :: names) (id :: ids) (place + 1) rest

def warnings (c : Config) : List Warning :=
  whenever (c.engine.listen.port == 0) .ephemeralPort ++
    whenever (c.engine.agingInterval == 0) .agingDisabled ++
    whenever (!levels.contains c.logging.level.toLower) (.unknownLevel c.logging.level) ++
    whenever (!formats.contains c.logging.format) (.unknownFormat c.logging.format) ++
    whenever c.interfaces.isEmpty .noInterfaces

def faults (c : Config) : List Fault :=
  whenever (c.engine.commandTimeout == 0) .noCommandTimeout ++
    whenever (c.timeouts.tcp == 0) (.noIdleTimeout "tcp") ++
    whenever (c.timeouts.udp == 0) (.noIdleTimeout "udp") ++
    whenever (c.timeouts.other == 0) (.noIdleTimeout "other") ++
    interfaceFaults [] [] 0 c.interfaces

def validate (c : Config) : Diagnosis := ⟨c.warnings, c.faults⟩

end Config

end ControlPlane
