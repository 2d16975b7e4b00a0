/-
The physical interfaces. They come from the settings, in their order; afterwards
only the two flags of one change. The table holds that its index of names is exact, so
no two interfaces have one name.
-/
import ControlPlane.Config.Basic
import ControlPlane.Store.Keyed
import ControlPlane.Wire.Interface

namespace ControlPlane

/-- The interfaces by number; the first is number one. -/
structure InterfaceTable where
  interfaces : Sequenced Interface
  /-- From an interface's name to its number. -/
  byName : Index String Nat
  indexed : interfaces.IndexedBy (·.name) byName

namespace InterfaceTable

def empty : InterfaceTable := ⟨.empty, .empty, Sequenced.indexedBy_empty⟩

def size (t : InterfaceTable) : Nat := t.interfaces.size

/-- The interface of a name. -/
def resolve? (t : InterfaceTable) (name : String) : Option Interface :=
  (t.byName.get? name).bind t.interfaces.get?

/-- The interface of an id. -/
def getById? (t : InterfaceTable) (id : UInt32) : Option Interface :=
  t.interfaces.values.find? (·.id == id)

/-- A new interface behind all others, whose name and id are new. -/
def insert (t : InterfaceTable) (i : Interface) : Except Error InterfaceTable :=
  if named : t.byName.contains i.name then .error (.config (.duplicateInterface i.name))
  else if (t.getById? i.id).isSome then .error (.config (.duplicateInterfaceId i.id))
  else
    .ok
      { interfaces := t.interfaces.push i
        byName := t.byName.insert i.name t.interfaces.next
        indexed := t.indexed.push (Option.not_isSome_iff_eq_none.1 named) }

/-- The interface that settings describe, at a place in their list. -/
def ofSetting (place : Nat) (s : InterfaceSettings) : Except Error Interface := do
  let id := s.effectiveId place
  let mac ← match s.mac with
    | some text => Mac.parse text
    | none => .ok (Mac.ofNumber id)
  return { id, name := s.name, mac, enabled := s.enabled, promiscuous := s.promiscuous,
           received := 0, sent := 0 }

/-- The table with the interfaces of settings whose first has a place. -/
def insertAll (t : InterfaceTable) (place : Nat) : List InterfaceSettings → Except Error InterfaceTable
  | [] => .ok t
  | s :: rest => do
    let i ← ofSetting place s
    let t ← t.insert i
    t.insertAll (place + 1) rest

/-- The interfaces that settings describe, in their order. -/
def ofSettings (settings : List InterfaceSettings) : Except Error InterfaceTable :=
  empty.insertAll 0 settings

/-- Sets the flags of the interface with the id of another as the other has
them. Nothing else changes. -/
def update (t : InterfaceTable) (i : Interface) : Except Status InterfaceTable :=
  match t.interfaces.entries.find? (·.2.id == i.id) with
  | none => .error .entryNotFound
  | some (seq, _) =>
    .ok
      { t with
        interfaces := t.interfaces.modify seq fun j => { j with enabled := i.enabled, promiscuous := i.promiscuous }
        indexed := t.indexed.modify (by intro _; rfl) seq }

end InterfaceTable

end ControlPlane
