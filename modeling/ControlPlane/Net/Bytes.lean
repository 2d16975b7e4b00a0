/-
Octet strings, and the numbers they spell most significant octet first.

`Bytes.value_bigEndian`: the octets of a number spell it again, reduced to the
width they hold. `Bytes.bigEndian_value`: every octet string is the writing of
the number it spells.
-/
namespace ControlPlane

/-- Octets in the order in which they are sent. -/
abbrev Bytes := List UInt8

namespace Bytes

/-- The low `width` octets of a number, most significant first. -/
def bigEndian : (width : Nat) → Nat → Bytes
  | 0, _ => []
  | width + 1, n => bigEndian width (n / 256) ++ [UInt8.ofNat n]

/-- The number that octets spell, most significant first. -/
def value (bs : Bytes) : Nat := bs.foldl (fun n b => n * 256 + b.toNat) 0

/-- How many numbers so many octets can spell. -/
def span : (width : Nat) → Nat
  | 0 => 1
  | width + 1 => 256 * span width

def zeros (n : Nat) : Bytes := List.replicate n 0

/-- Exactly `width` octets: cut when there are more, filled with zeros when
there are fewer. -/
def fit (width : Nat) (bs : Bytes) : Bytes := bs.take width ++ zeros (width - bs.length)

@[simp] theorem length_bigEndian (width n : Nat) : (bigEndian width n).length = width := by
  induction width generalizing n with
  | zero => rfl
  | succ width ih => simp [bigEndian, ih]

@[simp] theorem length_zeros (n : Nat) : (zeros n).length = n := by simp [zeros]

@[simp] theorem length_fit (width : Nat) (bs : Bytes) : (fit width bs).length = width := by
  simp [fit]; omega

theorem fit_of_length {width : Nat} {bs : Bytes} (h : bs.length = width) : fit width bs = bs := by
  subst h; simp [fit, zeros]

theorem span_two : span 2 = 65536 := rfl

theorem span_four : span 4 = 4294967296 := rfl

theorem span_eight : span 8 = 18446744073709551616 := rfl

theorem span_sixteen : span 16 = 340282366920938463463374607431768211456 := rfl

@[simp] theorem value_nil : value [] = 0 := rfl

@[simp] theorem value_concat (bs : Bytes) (b : UInt8) :
    value (bs ++ [b]) = value bs * 256 + b.toNat := by
  simp [value, List.foldl_append]

/-- The octets of a number spell it again, reduced to the width they hold. -/
theorem value_bigEndian (width n : Nat) : value (bigEndian width n) = n % span width := by
  induction width generalizing n with
  | zero => simp [bigEndian, span, Nat.mod_one]
  | succ width ih =>
    have last : (UInt8.ofNat n).toNat = n % 256 := UInt8.toNat_ofNat'
    have split : n % span (width + 1) = n % 256 + 256 * (n / 256 % span width) := Nat.mod_mul
    rw [bigEndian, value_concat, ih, last, split]
    omega

theorem value_lt (bs : Bytes) : value bs < span bs.length := by
  induction h : bs.length generalizing bs with
  | zero => simp [List.length_eq_zero_iff.1 h, span]
  | succ n ih =>
    obtain ⟨init, b, rfl⟩ := List.eq_nil_or_concat bs |>.resolve_left (by rintro rfl; simp at h)
    simp only [List.concat_eq_append, List.length_append, List.length_singleton, Nat.add_right_cancel_iff] at h
    have hi := ih init h
    have hb := b.toNat_lt
    rw [List.concat_eq_append, value_concat, span]
    omega

/-- Every octet string is the writing of the number it spells. -/
theorem bigEndian_value (bs : Bytes) : bigEndian bs.length (value bs) = bs := by
  induction h : bs.length generalizing bs with
  | zero => simp [List.length_eq_zero_iff.1 h, bigEndian]
  | succ n ih =>
    obtain ⟨init, b, rfl⟩ := List.eq_nil_or_concat bs |>.resolve_left (by rintro rfl; simp at h)
    simp only [List.concat_eq_append, List.length_append, List.length_singleton, Nat.add_right_cancel_iff] at h
    have hb := b.toNat_lt
    have hd : (value init * 256 + b.toNat) / 256 = value init := by omega
    have hm : UInt8.ofNat (value init * 256 + b.toNat) = b := by
      apply UInt8.toNat_inj.1; rw [UInt8.toNat_ofNat']; omega
    rw [List.concat_eq_append, value_concat, bigEndian, hd, hm, ih init h]

end Bytes

end ControlPlane
