/-
What becomes of a name in its field.

A field has room for fifteen octets of a name and a zero behind them, and is read up to its first zero. So
of any text it carries what stands before the first NUL, as far as there is room (`read_write_name`). A text
that has no NUL and fits is carried as it is, and there is one other kind of texts that are
(`carried_eq_self_iff`).
-/
import ControlPlane.Proofs.Text.Utf8
import ControlPlane.Wire.Layout
import Mathlib.Data.List.TakeWhile

namespace ControlPlane.Wire

/-- A text up to its first NUL. -/
def untilNul (s : String) : String := .ofList (s.toList.takeWhile (· != '\x00'))

theorem untilNul_eq_self_iff {s : String} : untilNul s = s ↔ '\x00' ∉ s.toList := by
  rw [untilNul, ← String.toList_inj, String.toList_ofList, List.takeWhile_eq_self_iff]
  simp only [bne_iff_ne, ne_eq]
  exact ⟨fun h nul => h _ nul rfl, fun h c hc same => h (same ▸ hc)⟩

theorem utf8ByteSize_untilNul_le (s : String) : (untilNul s).utf8ByteSize ≤ s.utf8ByteSize := by
  rw [← Utf8.size_toList, ← Utf8.size_toList, untilNul, String.toList_ofList]
  conv => rhs; rw [← List.takeWhile_append_dropWhile (p := (· != '\x00')) (l := s.toList), Utf8.size_append]
  exact Nat.le_add_right ..

namespace Layout

/-- What a field of names carries of a text: the text up to its first NUL, of as many octets as there is room
for. Where these end inside of a character, a replacement stands for it. -/
def carried (s : String) : String := .ofList (Utf8.severed (nameWidth - 1) (untilNul s).toList)

theorem takeWhile_fit {bs : Bytes} {n : Nat} (room : bs.length ≤ n) :
    (Bytes.fit n bs).takeWhile (· != 0) = bs.takeWhile (· != 0) := by
  have zeros : (Bytes.zeros (n - bs.length)).takeWhile (· != 0) = [] := by
    cases n - bs.length <;> rfl
  rw [Bytes.fit, List.take_of_length_le room, List.takeWhile_append, zeros, List.append_nil]
  split
  · next whole => exact ((List.takeWhile_prefix _).eq_of_length whole).symm
  · rfl

/-- **A field of names gives back what it carries.** -/
theorem read_write_name (s : String) : name.read (name.write s) = carried s := by
  have room : ((Utf8.encode s).take (nameWidth - 1)).length ≤ nameWidth := by
    rw [List.length_take]
    exact Nat.le_trans (Nat.min_le_left ..) (Nat.sub_le ..)
  have octets : (name.write s).takeWhile (· != 0) =
      ((untilNul s).toList.flatMap String.utf8EncodeChar).take (nameWidth - 1) := by
    rw [untilNul, String.toList_ofList, ← Utf8.takeWhile_flatMap, List.take_takeWhile]
    exact takeWhile_fit room
  show Utf8.decode ((name.write s).takeWhile (· != 0)) = carried s
  rw [octets, Utf8.decode, Utf8.decodeChars_take, carried]

theorem nul_not_mem_name (bs : Bytes) : '\x00' ∉ (name.read bs).toList := by
  simp only [name, Utf8.decode, String.toList_ofList]
  refine Utf8.nul_not_mem_decodeChars fun b hb => ?_
  have nonzero : (b != 0) = true := List.mem_takeWhile_imp (p := (· != 0)) hb
  exact bne_iff_ne.1 nonzero

theorem nul_not_mem_carried (s : String) : '\x00' ∉ (carried s).toList := by
  rw [← read_write_name]
  exact nul_not_mem_name _

/-- A text is carried as it is when it has no NUL and fits; or when what does not fit of it are one or two
octets of a replacement at its end. -/
theorem carried_eq_self_iff {s : String} :
    carried s = s ↔ '\x00' ∉ s.toList ∧
      (s.utf8ByteSize < nameWidth ∨
        s.utf8ByteSize < nameWidth + 2 ∧ s.toList.getLast? = some Utf8.replacement) := by
  have width : nameWidth = 15 + 1 := rfl
  have unsevered (nulFree : '\x00' ∉ s.toList) :
      carried s = s ↔ s.utf8ByteSize < nameWidth ∨
        s.utf8ByteSize < nameWidth + 2 ∧ s.toList.getLast? = some Utf8.replacement := by
    rw [carried, untilNul_eq_self_iff.2 nulFree, ← String.toList_inj, String.toList_ofList,
      Utf8.severed_eq_self_iff, Utf8.size_toList, width]
    exact or_congr (by omega) (and_congr_left fun _ => by omega)
  constructor
  · intro same
    have nulFree : '\x00' ∉ s.toList := same ▸ nul_not_mem_carried s
    exact ⟨nulFree, (unsevered nulFree).1 same⟩
  · rintro ⟨nulFree, fits⟩
    exact (unsevered nulFree).2 fits

/-- What a field carried once, it carries as it is. -/
theorem carried_carried (s : String) : carried (carried s) = carried s := by
  have whole := untilNul_eq_self_iff.2 (nul_not_mem_carried s)
  rw [carried, whole, carried, String.toList_ofList, Utf8.severed_severed]

/-- A text that fits is cut at its first NUL only. -/
theorem carried_of_fits {s : String} (fits : s.utf8ByteSize < nameWidth) : carried s = untilNul s := by
  have room : Utf8.size (untilNul s).toList ≤ nameWidth - 1 := by
    rw [Utf8.size_toList]
    have := utf8ByteSize_untilNul_le s
    omega
  rw [carried, Utf8.severed_eq_self_iff.2 (.inl room), String.ofList_toList]

end Layout

end ControlPlane.Wire
