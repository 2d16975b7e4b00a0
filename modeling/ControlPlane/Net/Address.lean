/-
Internet addresses, their families, and the addresses of sockets.

Addresses are ordered as one number each (`SocketAddress.rank`): every IPv4
address before every IPv6 address, then by address, port and zone.
-/
import ControlPlane.Net.Bytes

namespace ControlPlane

/-- The two address families. -/
inductive Family where
  | v4
  | v6
  deriving DecidableEq, Repr

/-- An internet address, as the number its octets spell. -/
inductive IpAddress where
  | v4 (bits : BitVec 32)
  | v6 (bits : BitVec 128)
  deriving DecidableEq, Repr

/-- The address of a socket. The zone belongs to IPv6 addresses; it is zero for
every other one. -/
structure SocketAddress where
  ip : IpAddress
  port : UInt16
  zone : UInt32 := 0
  deriving DecidableEq, Repr

/-- One value for each family. -/
structure PerFamily (α : Type) where
  v4 : α
  v6 : α

namespace Family

/-- Octets of an address of the family. -/
def width : Family → Nat
  | v4 => 4
  | v6 => 16

/-- The address that stands for "any". -/
def unspecified : Family → IpAddress
  | v4 => .v4 0
  | v6 => .v6 0

end Family

namespace IpAddress

def family : IpAddress → Family
  | v4 _ => .v4
  | v6 _ => .v6

/-- An IPv4 address inside the IPv6 range `::ffff:0:0/96`. -/
def mapped (bits : BitVec 32) : BitVec 128 := BitVec.ofNat 128 (0xFFFF * Bytes.span 4 + bits.toNat)

/-- The IPv4 address that an IPv6 address of the range `::ffff:0:0/96` holds. -/
def unmapped? (bits : BitVec 128) : Option (BitVec 32) :=
  if bits.toNat / Bytes.span 4 = 0xFFFF then some (BitVec.ofNat 32 bits.toNat) else none

/-- The octets of an address in a slot of a family. An IPv4 address in an IPv6
slot is mapped; an IPv6 address in an IPv4 slot is unmapped, and is the
unspecified address when it holds none. -/
def slot : Family → IpAddress → Bytes
  | .v4, .v4 bits => Bytes.bigEndian 4 bits.toNat
  | .v6, .v6 bits => Bytes.bigEndian 16 bits.toNat
  | .v6, .v4 bits => Bytes.bigEndian 16 (mapped bits).toNat
  | .v4, .v6 bits => Bytes.bigEndian 4 ((unmapped? bits).getD 0).toNat

/-- The address in a slot of a family. -/
def ofSlot : Family → Bytes → IpAddress
  | .v4, bs => .v4 (BitVec.ofNat 32 (Bytes.value bs))
  | .v6, bs => .v6 (BitVec.ofNat 128 (Bytes.value bs))

@[simp] theorem length_slot (f : Family) (a : IpAddress) : (slot f a).length = f.width := by
  cases f <;> cases a <;> simp [slot, Family.width]

@[simp] theorem family_ofSlot (f : Family) (bs : Bytes) : (ofSlot f bs).family = f := by
  cases f <;> rfl

/-- A slot of an address's own family gives the address back. -/
theorem ofSlot_slot (a : IpAddress) : ofSlot a.family (slot a.family a) = a := by
  cases a with
  | v4 bits =>
    have := bits.isLt
    simp only [family, slot, ofSlot, Bytes.value_bigEndian, Bytes.span_four]
    rw [Nat.mod_eq_of_lt (by omega)]; simp
  | v6 bits =>
    have := bits.isLt
    simp only [family, slot, ofSlot, Bytes.value_bigEndian, Bytes.span_sixteen]
    rw [Nat.mod_eq_of_lt (by omega)]; simp

/-- A slot that was read is written as it stood. -/
theorem slot_ofSlot {f : Family} {bs : Bytes} (h : bs.length = f.width) : slot f (ofSlot f bs) = bs := by
  have lt := Bytes.value_lt bs
  have same := Bytes.bigEndian_value bs
  cases f <;> simp only [Family.width] at h <;> rw [h] at lt same <;>
    simp only [Bytes.span_four, Bytes.span_sixteen] at lt <;>
    simp only [slot, ofSlot, BitVec.toNat_ofNat] <;> rw [Nat.mod_eq_of_lt (by omega)] <;> exact same

/-- The family, then the address, as one number. -/
def rank : IpAddress → Nat
  | v4 bits => bits.toNat
  | v6 bits => Bytes.span 16 + bits.toNat

theorem rank_injective {a b : IpAddress} (h : a.rank = b.rank) : a = b := by
  cases a <;> cases b <;> rename_i x y <;> have hx := x.isLt <;> have hy := y.isLt <;>
    simp only [rank, Bytes.span_sixteen] at h
  · rw [BitVec.eq_of_toNat_eq h]
  · omega
  · omega
  · rw [BitVec.eq_of_toNat_eq (by omega : x.toNat = y.toNat)]

end IpAddress

namespace SocketAddress

/-- The place of a socket address in the order of all of them. -/
def rank (a : SocketAddress) : Nat := (a.ip.rank * Bytes.span 2 + a.port.toNat) * Bytes.span 4 + a.zone.toNat

theorem rank_injective {a b : SocketAddress} (h : a.rank = b.rank) : a = b := by
  obtain ⟨aip, aport, azone⟩ := a
  obtain ⟨bip, bport, bzone⟩ := b
  simp only [rank, Bytes.span_two, Bytes.span_four] at h
  have := azone.toNat_lt; have := bzone.toNat_lt
  have := aport.toNat_lt; have := bport.toNat_lt
  have hip : aip = bip := IpAddress.rank_injective (by omega)
  have hport : aport = bport := UInt16.toNat_inj.1 (by omega)
  have hzone : azone = bzone := UInt32.toNat_inj.1 (by omega)
  rw [hip, hport, hzone]

end SocketAddress

namespace PerFamily

variable {α : Type}

def get (p : PerFamily α) : Family → α
  | .v4 => p.v4
  | .v6 => p.v6

def set (p : PerFamily α) : Family → α → PerFamily α
  | .v4, a => { p with v4 := a }
  | .v6, a => { p with v6 := a }

@[simp] theorem get_set_self (p : PerFamily α) (f : Family) (a : α) : (p.set f a).get f = a := by
  cases f <;> rfl

theorem get_set_of_ne (p : PerFamily α) {f g : Family} (h : g ≠ f) (a : α) :
    (p.set f a).get g = p.get g := by
  cases f <;> cases g <;> first | rfl | exact absurd rfl h

@[simp] theorem set_get_self (p : PerFamily α) (f : Family) : p.set f (p.get f) = p := by
  cases f <;> rfl

end PerFamily

end ControlPlane
