/-
What the engine counts, and the listing of it.

Counters wrap at 2^64. The sizes of the tables are set from time to time; each
command code that was ever answered has its own two counts.
-/
import ControlPlane.Store.SortedMap
import ControlPlane.Text.Hex

namespace ControlPlane

/-- What is counted one by one. -/
inductive Counter where
  /-- Datagrams that are no message. -/
  | malformed
  /-- Events handed to a back-channel. -/
  | delivered
  /-- Events that could not be delivered. -/
  | undelivered
  /-- Connections removed because their route went away. -/
  | cascaded
  /-- Connections removed because they were idle. -/
  | aged
  deriving DecidableEq, Repr

/-- How often a command was answered, and how often not with `Status.ok`. -/
structure CommandCount where
  requests : UInt64
  failures : UInt64
  deriving DecidableEq, Repr

/-- Sizes of the tables when they were last noted. -/
structure TableSizes where
  routes : UInt64
  connections : UInt64
  clients : UInt64
  deriving DecidableEq, Repr

structure Metrics where
  malformed : UInt64
  delivered : UInt64
  undelivered : UInt64
  cascaded : UInt64
  aged : UInt64
  sizes : TableSizes
  commands : SortedMap UInt16 CommandCount

def Counter.name : Counter → String
  | malformed => "messages_malformed"
  | delivered => "notifications_sent"
  | undelivered => "notifications_failed"
  | cascaded => "conntracks_cascaded"
  | aged => "conntracks_aged"

def Counter.all : List Counter := [malformed, delivered, undelivered, cascaded, aged]

/-- Counting one and then many. -/
theorem add_one_add_ofNat (a : UInt64) (n : Nat) : a + 1 + .ofNat n = a + .ofNat (n + 1) := by
  rw [UInt64.ofNat_add, UInt64.add_assoc, UInt64.add_comm 1]
  rfl

namespace Metrics

def zero : Metrics :=
  { malformed := 0, delivered := 0, undelivered := 0, cascaded := 0, aged := 0, sizes := ⟨0, 0, 0⟩,
    commands := .empty }

def count (m : Metrics) : Counter → UInt64
  | .malformed => m.malformed
  | .delivered => m.delivered
  | .undelivered => m.undelivered
  | .cascaded => m.cascaded
  | .aged => m.aged

def add (m : Metrics) (c : Counter) (n : UInt64) : Metrics :=
  match c with
  | .malformed => { m with malformed := m.malformed + n }
  | .delivered => { m with delivered := m.delivered + n }
  | .undelivered => { m with undelivered := m.undelivered + n }
  | .cascaded => { m with cascaded := m.cascaded + n }
  | .aged => { m with aged := m.aged + n }

/-- The counts of a command code. -/
def command (m : Metrics) (code : UInt16) : CommandCount := (m.commands.get? code).getD ⟨0, 0⟩

/-- Counts an answered command. -/
def answered (m : Metrics) (code : UInt16) (ok : Bool) : Metrics :=
  let c := m.command code
  { m with
    commands := m.commands.insert code
      { requests := c.requests + 1, failures := if ok then c.failures else c.failures + 1 } }

/-- Notes the sizes of the tables. -/
def note (m : Metrics) (routes connections clients : Nat) : Metrics :=
  { m with
    sizes :=
      { routes := .ofNat routes, connections := .ofNat connections, clients := .ofNat clients } }

/-- Everything by name: the counters, the sizes, then each command in the order
of the codes. -/
def listing (m : Metrics) : List (String × UInt64) :=
  Counter.all.map (fun c => (c.name, m.count c)) ++
    [("route_count", m.sizes.routes), ("conntrack_count", m.sizes.connections),
      ("client_count", m.sizes.clients)] ++
    m.commands.entries.flatMap fun (code, c) =>
      let name := "cmd_" ++ Hex.lower 4 code.toNat
      [(name ++ "_requests", c.requests), (name ++ "_failures", c.failures)]

@[simp] theorem sizes_add (m : Metrics) (c : Counter) (n : UInt64) : (m.add c n).sizes = m.sizes := by
  cases c <;> rfl

@[simp] theorem commands_add (m : Metrics) (c : Counter) (n : UInt64) :
    (m.add c n).commands = m.commands := by
  cases c <;> rfl

@[simp] theorem count_answered (m : Metrics) (code : UInt16) (ok : Bool) (c : Counter) :
    (m.answered code ok).count c = m.count c := by
  cases c <;> rfl

theorem command_answered (m : Metrics) (code : UInt16) (ok : Bool) (code' : UInt16) :
    (m.answered code ok).command code' =
      if code = code' then
        ⟨(m.command code).requests + 1,
          if ok then (m.command code).failures else (m.command code).failures + 1⟩
      else m.command code' := by
  simp only [answered, command, SortedMap.get?_insert, rank_inj]
  by_cases h : code = code' <;> simp [h]

end Metrics

end ControlPlane
