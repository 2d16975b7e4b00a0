/-
Fixed layouts of octets: how a value is written in a field of a given width, how
the field is read, and how fields are put one behind another.

`Layout.Exact`: a value that its field gives back. `Layout.Faithful`: octets that
are written again as they stood. Both are kept by `Layout.seq`, so a record's
round trip is the conjunction of its fields'.
-/
import ControlPlane.Net.Address
import ControlPlane.Net.Mac
import ControlPlane.Text.Utf8

namespace ControlPlane.Wire

/-- A field of `width` octets that holds values of a type. Octets are read in
runs of exactly that width. -/
structure Layout (α : Type) where
  width : Nat
  write : α → Bytes
  read : Bytes → α
  length_write : ∀ a, (write a).length = width

namespace Layout

variable {α β : Type}

/-- One field behind another. -/
def seq (l : Layout α) (m : Layout β) : Layout (α × β) where
  width := l.width + m.width
  write p := l.write p.1 ++ m.write p.2
  read bs := (l.read (bs.take l.width), m.read (bs.drop l.width))
  length_write p := by simp [l.length_write, m.length_write]

/-- A field seen through a change of representation. -/
def through (l : Layout α) (into : α → β) (back : β → α) : Layout β where
  width := l.width
  write b := l.write (back b)
  read bs := into (l.read bs)
  length_write b := l.length_write (back b)

/-- Octets as they stand. -/
def raw (n : Nat) : Layout Bytes where
  width := n
  write bs := bs.fit n
  read bs := bs
  length_write := by simp

/-- Reserved octets: zeros when written, ignored when read. -/
def gap (n : Nat) : Layout Unit where
  width := n
  write _ := Bytes.zeros n
  read _ := ()
  length_write := by simp

/-- One octet. -/
def octet : Layout UInt8 where
  width := 1
  write b := [b]
  read bs := UInt8.ofNat (Bytes.value bs)
  length_write _ := rfl

/-- A number of sixteen bits, most significant octet first. -/
def u16 : Layout UInt16 where
  width := 2
  write n := Bytes.bigEndian 2 n.toNat
  read bs := UInt16.ofNat (Bytes.value bs)
  length_write := by simp

/-- A number of thirty-two bits, most significant octet first. -/
def u32 : Layout UInt32 where
  width := 4
  write n := Bytes.bigEndian 4 n.toNat
  read bs := UInt32.ofNat (Bytes.value bs)
  length_write := by simp

/-- A number of sixty-four bits, most significant octet first. -/
def u64 : Layout UInt64 where
  width := 8
  write n := Bytes.bigEndian 8 n.toNat
  read bs := UInt64.ofNat (Bytes.value bs)
  length_write := by simp

def mac : Layout Mac where
  width := 6
  write m := m.octets
  read := Mac.ofBytes
  length_write m := m.length_octets

/-- An address in a slot of a family. -/
def address (f : Family) : Layout IpAddress where
  width := f.width
  write := IpAddress.slot f
  read := IpAddress.ofSlot f
  length_write := by simp

/-- Octets of a name field. -/
def nameWidth : Nat := 16

/-- A name in sixteen octets: at most fifteen octets of it, then zeros. What is
read ends before the first zero octet. -/
def name : Layout String where
  width := nameWidth
  write s := Bytes.fit nameWidth ((Utf8.encode s).take (nameWidth - 1))
  read bs := Utf8.decode (bs.takeWhile (· != 0))
  length_write := by simp

/-! ## What a layout keeps -/

/-- The field gives the value back. -/
def Exact (l : Layout α) (a : α) : Prop := l.read (l.write a) = a

/-- The octets are written again as they stood. -/
def Faithful (l : Layout α) (bs : Bytes) : Prop := l.write (l.read bs) = bs

theorem read_seq_write (l : Layout α) (m : Layout β) (p : α × β) :
    (l.seq m).read ((l.seq m).write p) = (l.read (l.write p.1), m.read (m.write p.2)) := by
  have h := l.length_write p.1
  simp only [seq, ← h, List.take_left', List.drop_left']

theorem Exact.seq {l : Layout α} {m : Layout β} {a : α} {b : β} (ha : l.Exact a) (hb : m.Exact b) :
    (l.seq m).Exact (a, b) := by
  rw [Exact, read_seq_write]
  exact Prod.ext ha hb

theorem Faithful.seq {l : Layout α} {m : Layout β} {bs : Bytes} (ha : l.Faithful (bs.take l.width))
    (hb : m.Faithful (bs.drop l.width)) : (l.seq m).Faithful bs := by
  simp only [Faithful] at ha hb
  simp [Faithful, Layout.seq, ha, hb]

theorem exact_u16 (n : UInt16) : u16.Exact n := by
  have := n.toNat_lt
  simp only [Exact, u16, Bytes.value_bigEndian, Bytes.span_two]
  rw [Nat.mod_eq_of_lt (by omega), UInt16.ofNat_toNat]

theorem exact_u32 (n : UInt32) : u32.Exact n := by
  have := n.toNat_lt
  simp only [Exact, u32, Bytes.value_bigEndian, Bytes.span_four]
  rw [Nat.mod_eq_of_lt (by omega), UInt32.ofNat_toNat]

theorem exact_u64 (n : UInt64) : u64.Exact n := by
  have := n.toNat_lt
  simp only [Exact, u64, Bytes.value_bigEndian, Bytes.span_eight]
  rw [Nat.mod_eq_of_lt (by omega), UInt64.ofNat_toNat]

theorem exact_octet (b : UInt8) : octet.Exact b := by
  simp [Exact, octet, Bytes.value]

theorem exact_mac (m : Mac) : mac.Exact m := by
  obtain ⟨bs, h⟩ := m
  simp [Exact, mac, Mac.ofBytes, Bytes.fit_of_length h]

theorem exact_gap (n : Nat) : (gap n).Exact () := rfl

theorem exact_address (a : IpAddress) : (address a.family).Exact a := IpAddress.ofSlot_slot a

end Layout

end ControlPlane.Wire
