/-
What the engine is set up with, and what holds where nothing is said.
-/
import ControlPlane.Net.Address

namespace ControlPlane

/-- Settings of the server and its clients. -/
structure EngineSettings where
  /-- Where the server takes commands. -/
  listen : SocketAddress
  /-- Seconds between two passes over idle connections; zero for none. -/
  agingInterval : UInt64
  /-- Milliseconds that a client waits for a reply. -/
  commandTimeout : UInt64
  deriving DecidableEq

structure LoggingSettings where
  level : String
  format : String
  deriving DecidableEq, Repr

/-- Seconds that a connection may be idle, by class of protocol. -/
structure TimeoutSettings where
  tcp : UInt32
  udp : UInt32
  other : UInt32
  deriving DecidableEq, Repr

structure InterfaceSettings where
  name : String
  /-- The place in the list stands for an id that is not given. -/
  id : Option UInt32
  /-- The id stands for a hardware address that is not given. -/
  mac : Option String
  enabled : Bool
  promiscuous : Bool
  deriving DecidableEq, Repr

structure Config where
  engine : EngineSettings
  logging : LoggingSettings
  timeouts : TimeoutSettings
  interfaces : List InterfaceSettings
  deriving DecidableEq

namespace EngineSettings

/-- 127.0.0.1:5400, ten seconds between passes and five for a reply. -/
def standard : EngineSettings :=
  { listen := { ip := .v4 0x7F000001, port := 5400 }, agingInterval := 10, commandTimeout := 5000 }

end EngineSettings

namespace LoggingSettings

def standard : LoggingSettings := { level := "info", format := "pretty" }

end LoggingSettings

namespace TimeoutSettings

/-- Two hours for TCP, five minutes for UDP, one for all others. -/
def standard : TimeoutSettings := { tcp := 7200, udp := 300, other := 60 }

end TimeoutSettings

namespace InterfaceSettings

/-- An enabled interface of which only the name is given. -/
def named (name : String) : InterfaceSettings :=
  { name, id := none, mac := none, enabled := true, promiscuous := false }

/-- The id of the interface at a place in the list. -/
def effectiveId (s : InterfaceSettings) (place : Nat) : UInt32 := s.id.getD (.ofNat place)

end InterfaceSettings

namespace Config

def standard : Config :=
  { engine := .standard, logging := .standard, timeouts := .standard, interfaces := [] }

end Config

end ControlPlane
