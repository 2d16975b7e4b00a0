/-
A listing that is asked for one entry at a time.

The cursor remembers the sequence number of the last entry that it gave, not a
position, so the listing goes on in order when entries are added or removed
between two questions.
-/
import ControlPlane.Store.Sequenced
import ControlPlane.Wire.Command

namespace ControlPlane

/-- Where a listing stands: at rest, or behind an entry. -/
inductive Cursor where
  | idle
  | behind (last : Nat)
  deriving DecidableEq, Repr

namespace Cursor

variable {α : Type}

/-- The sequence number of the last entry given, while a listing goes on. -/
def last? : Cursor → Option Nat
  | idle => none
  | behind last => some last

/-- Gives an entry and stands behind it, or comes to rest when there is none. -/
def settle : Option (Nat × α) → Cursor × Except Status α
  | some (seq, a) => (behind seq, .ok a)
  | none => (idle, .error .entryNotFound)

/-- Starts a listing with the oldest entry. -/
def first (table : SortedMap Nat α) : Cursor × Except Status α := settle table.first?

/-- Goes on behind the last entry given. A cursor at rest has none left. -/
def next (c : Cursor) (table : SortedMap Nat α) : Cursor × Except Status α :=
  match c with
  | idle => (idle, .error .entryNotFound)
  | behind last => settle (table.after? last)

end Cursor

end ControlPlane
