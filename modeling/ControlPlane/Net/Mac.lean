/-
Hardware addresses of network interfaces and their text.

A text is split at colons, or at hyphens when it has no colon; it needs six
groups of two octets. Each group is read as a hexadecimal number of either case,
which may have a plus sign in front.
-/
import ControlPlane.Text.Hex
import ControlPlane.Text.Utf8

namespace ControlPlane

/-- Six octets. -/
structure Mac where
  octets : Bytes
  length_octets : octets.length = 6
  deriving DecidableEq

namespace Mac

def zero : Mac := ⟨Bytes.zeros 6, by simp⟩

def broadcast : Mac := ⟨List.replicate 6 0xFF, by simp⟩

/-- The first six octets, with zeros for those that are missing. -/
def ofBytes (bs : Bytes) : Mac := ⟨Bytes.fit 6 bs, by simp⟩

/-- The address that an interface has when none is given: locally administered,
with the interface's number in the last four octets. -/
def ofNumber (id : UInt32) : Mac := ⟨[0x02, 0x00] ++ Bytes.bigEndian 4 id.toNat, by simp⟩

def isZero (m : Mac) : Bool := m == zero

/-- A group address: the lowest bit of the first octet is set. -/
def isMulticast (m : Mac) : Bool := m.octets.head?.any (· &&& 1 != 0)

def isBroadcast (m : Mac) : Bool := m == broadcast

/-- Two lower case digits for each octet, with colons between them. -/
def render (m : Mac) : String :=
  String.intercalate ":" (m.octets.map fun b => Hex.lower 2 b.toNat)

/-- What keeps a text from being an address. -/
inductive Defect where
  /-- Not six groups, or a group that is not two octets long. -/
  | shape
  /-- A group that spells no number. -/
  | digit
  deriving DecidableEq, Repr

/-- One octet from one group. -/
def readGroup (g : List Char) : Except Defect UInt8 :=
  if Utf8.size g ≠ 2 then .error .shape
  else match Hex.octet? g with
    | some b => .ok b
    | none => .error .digit

/-- Every group in order; the first defect wins. -/
def readGroups : List (List Char) → Except Defect Bytes
  | [] => .ok []
  | g :: gs =>
    match readGroup g with
    | .error e => .error e
    | .ok b => (readGroups gs).map (b :: ·)

/-- The groups of a text between its separators. -/
def groups (s : List Char) : List (List Char) :=
  if ':' ∈ s then s.splitOn ':' else s.splitOn '-'

/-- The address that a text spells. -/
def ofText (text : String) : Except Defect Mac :=
  let gs := groups text.toList
  if gs.length ≠ 6 then .error .shape
  else match readGroups gs with
    | .error e => .error e
    | .ok bs => if h : bs.length = 6 then .ok ⟨bs, h⟩ else .error .shape

theorem length_readGroups {gs : List (List Char)} {bs : Bytes} (h : readGroups gs = .ok bs) :
    bs.length = gs.length := by
  induction gs generalizing bs with
  | nil => cases h; rfl
  | cons g gs ih =>
    rw [readGroups] at h
    split at h
    · cases h
    · cases hr : readGroups gs with
      | error e => rw [hr] at h; cases h
      | ok cs => rw [hr] at h; cases h; simp [ih hr]

end Mac

end ControlPlane
