/-
What a message asks for: the commands of the protocol with their codes and the
size of their records, the actions that lead most records, and the statuses that
lead every reply.
-/
import ControlPlane.Net.Address

namespace ControlPlane

/-- The commands and events of the protocol. -/
inductive Command where
  | lockSession
  | unlockSession
  /-- Physical interfaces. -/
  | interface
  | route
  /-- Tracked connections of a family. -/
  | connection (f : Family)
  /-- Event: a tracked connection changed. -/
  | connectionChange (f : Family)
  /-- Removes all connections and routes of a family. -/
  | reset (f : Family)
  | setTimeout
  /-- Event: something the health monitor saw. -/
  | healthEvent
  deriving DecidableEq, Repr

/-- What to do with the record of a command. -/
inductive Action where
  | register
  | deregister
  | keepAlive
  | removed
  | update
  | query
  | queryCont
  deriving DecidableEq, Repr

/-- The outcome of a command. -/
inductive Status where
  | ok
  | unknownCommand
  | wrongSize
  | wrongParam
  | unknownAction
  | alreadyRegistered
  | entryNotFound
  | internalFailure
  | alreadyLocked
  | notLocked
  | wrongSession
  deriving DecidableEq, Repr

namespace Command

def code : Command → UInt16
  | lockSession => 0x0015
  | unlockSession => 0x0016
  | interface => 0x0100
  | route => 0x0313
  | connection .v4 => 0x0314
  | connectionChange .v4 => 0x0315
  | reset .v4 => 0x0316
  | setTimeout => 0x0319
  | connection .v6 => 0x0414
  | connectionChange .v6 => 0x0415
  | reset .v6 => 0x0416
  | healthEvent => 0x0F01

def all : List Command :=
  [lockSession, unlockSession, interface, route, connection .v4, connectionChange .v4, reset .v4,
    setTimeout, connection .v6, connectionChange .v6, reset .v6, healthEvent]

/-- The command of a code. -/
def ofCode? (n : UInt16) : Option Command := all.find? (·.code == n)

/-- Octets of a tracked connection's record. -/
def connectionSize (f : Family) : Nat := 8 + 2 * (2 * f.width + 12) + 2 * 12

/-- Octets of the record that a command carries. -/
def recordSize : Command → Nat
  | route => 60
  | connection f | connectionChange f => connectionSize f
  | interface => 40
  | setTimeout => 8
  | healthEvent => 68
  | lockSession | unlockSession | reset _ => 0

/-- Whether the record starts with an action. -/
def hasAction : Command → Bool
  | route | connection _ | connectionChange _ | interface => true
  | lockSession | unlockSession | reset _ | setTimeout | healthEvent => false

@[simp] theorem ofCode?_code (c : Command) : ofCode? c.code = some c := by
  cases c <;> first | rfl | (rename_i f; cases f <;> rfl)

theorem code_of_ofCode? {n : UInt16} {c : Command} (h : ofCode? n = some c) : c.code = n := by
  simpa using List.find?_some h

end Command

namespace Action

def number : Action → UInt16
  | register => 0
  | deregister => 1
  | keepAlive => 2
  | removed => 3
  | update => 4
  | query => 6
  | queryCont => 7

def all : List Action := [register, deregister, keepAlive, removed, update, query, queryCont]

def ofNumber? (n : UInt16) : Option Action := all.find? (·.number == n)

@[simp] theorem ofNumber?_number (a : Action) : ofNumber? a.number = some a := by cases a <;> rfl

theorem number_of_ofNumber? {n : UInt16} {a : Action} (h : ofNumber? n = some a) : a.number = n := by
  simpa using List.find?_some h

end Action

namespace Status

def number : Status → UInt16
  | ok => 0
  | unknownCommand => 1
  | wrongSize => 2
  | wrongParam => 3
  | unknownAction => 4
  | alreadyRegistered => 0x0100
  | entryNotFound => 0x0101
  | internalFailure => 0x0102
  | alreadyLocked => 0x0200
  | notLocked => 0x0201
  | wrongSession => 0x0202

def all : List Status :=
  [ok, unknownCommand, wrongSize, wrongParam, unknownAction, alreadyRegistered, entryNotFound,
    internalFailure, alreadyLocked, notLocked, wrongSession]

def ofNumber? (n : UInt16) : Option Status := all.find? (·.number == n)

def isOk (s : Status) : Bool := s == ok

def message : Status → String
  | ok => "ok"
  | unknownCommand => "unknown command"
  | wrongSize => "wrong command size"
  | wrongParam => "wrong command parameter"
  | unknownAction => "unknown action"
  | alreadyRegistered => "entry already registered"
  | entryNotFound => "entry not found"
  | internalFailure => "internal failure"
  | alreadyLocked => "session already locked"
  | notLocked => "session not locked"
  | wrongSession => "session locked by another client"

@[simp] theorem ofNumber?_number (s : Status) : ofNumber? s.number = some s := by cases s <;> rfl

theorem number_of_ofNumber? {n : UInt16} {s : Status} (h : ofNumber? n = some s) : s.number = n := by
  simpa using List.find?_some h

end Status

end ControlPlane
