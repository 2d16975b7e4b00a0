/-
The text of an event, cut to its field.

A record has sixty-four octets for the text, and one for their count. What is sent is the longest run of whole
characters from the front that takes no more, and zeros behind it: no character is divided, so the text that
is read has no replacement that was not there.

Main result: `event_text_truncated`.
-/
import ControlPlane.Proofs.Wire.Stability

namespace ControlPlane.Wire

/-- The octets of an event: its number, its severity, how many octets of text there are, these, and zeros. -/
theorem HealthEvent.octets (e : HealthEvent) :
    e.encode = Bytes.bigEndian 2 e.id.toNat ++
      [e.severity.number, UInt8.ofNat (Utf8.cut textRoom e.text).utf8ByteSize] ++
      Utf8.encode (Utf8.cut textRoom e.text) ++ Bytes.zeros (textRoom - (Utf8.cut textRoom e.text).utf8ByteSize) := by
  have field : (Utf8.encode (Utf8.cut textRoom e.text)).fit textRoom =
      Utf8.encode (Utf8.cut textRoom e.text) ++
        Bytes.zeros (textRoom - (Utf8.cut textRoom e.text).utf8ByteSize) := by
    have fits := Utf8.utf8ByteSize_cut_le textRoom e.text
    have length := Utf8.length_encode (Utf8.cut textRoom e.text)
    rw [Bytes.fit, List.take_of_length_le (by omega), length]
  rw [encode_eq]
  show Bytes.bigEndian 2 e.id.toNat ++ ([e.severity.number] ++ ([_] ++ Bytes.fit textRoom _)) = _
  rw [field]
  simp only [List.append_assoc, List.cons_append, List.nil_append]

/-- **An event comes back with its number, its severity and the longest beginning of its text that takes at most
sixty-four octets.** The record is of sixty-eight octets. The text in it is divided at the last boundary within
the field, every replacement in what comes back stood in the text, and only zeros follow. -/
theorem event_text_truncated (e : HealthEvent) :
    ∃ kept : String,
      HealthEvent.decode e.encode = .ok { e with text := kept } ∧
      (kept.toList <+: e.text.toList ∧ kept.utf8ByteSize ≤ 64 ∧
        ∀ front : String, front.toList <+: e.text.toList → front.utf8ByteSize ≤ 64 →
          front.toList <+: kept.toList) ∧
      (Utf8.isBoundary (Utf8.encode e.text) kept.utf8ByteSize = true ∧
        ∀ place ≤ 64, Utf8.isBoundary (Utf8.encode e.text) place = true → place ≤ kept.utf8ByteSize) ∧
      (∀ i : Nat, kept.toList[i]? = some Utf8.replacement → e.text.toList[i]? = some Utf8.replacement) ∧
      e.encode.length = 68 ∧
      e.encode = Bytes.bigEndian 2 e.id.toNat ++ [e.severity.number, UInt8.ofNat kept.utf8ByteSize] ++
        Utf8.encode kept ++ Bytes.zeros (64 - kept.utf8ByteSize) := by
  have whole := Utf8.cut_prefix_of 64 e.text
  refine ⟨Utf8.cut 64 e.text, HealthEvent.decode_encode_cut e, ⟨whole, Utf8.utf8ByteSize_cut_le 64 e.text, ?_⟩,
    ⟨Utf8.isBoundary_cut 64 e.text, fun place => Utf8.boundary_le_cut⟩, ?_, HealthEvent.layout.length_write _,
    e.octets⟩
  · exact fun front => Utf8.prefix_cut
  · intro i replaced
    obtain ⟨inside, same⟩ := List.getElem?_eq_some_iff.1 replaced
    rw [List.prefix_iff_getElem?.1 whole i inside, same]

namespace Small

/-- Twenty-one signs of three octets. -/
def signs : List Char := List.replicate 21 '€'

/-- An event with these signs and a letter of two octets, for which one is left. -/
def overflowing : HealthEvent := ⟨0x0102, .warning, .ofList (signs ++ ['é'])⟩

end Small

/-- The letter is left out, and the octet that was left is zero. -/
theorem event_text_truncated_small :
    HealthEvent.decode Small.overflowing.encode = .ok { Small.overflowing with text := .ofList Small.signs } ∧
    Small.overflowing.encode = [1, 2, 1, 63] ++ Utf8.encode (.ofList Small.signs) ++ [0] := by
  obtain ⟨kept, back, ⟨front, fits, longest⟩, -, -, -, octets⟩ := event_text_truncated Small.overflowing
  obtain ⟨behind, more⟩ := longest (.ofList Small.signs) (by decide) (by decide +kernel)
  obtain ⟨lost, whole⟩ := front
  have letter : behind ++ lost = ['é'] := by
    rw [← more, List.append_assoc] at whole
    simpa [Small.overflowing] using whole
  have signs : kept = .ofList Small.signs := by
    rw [← String.ofList_toList (s := kept), ← more, String.toList_ofList]
    cases behind with
    | nil => rw [List.append_nil]
    | cons c behind =>
      -- all of the text takes sixty-five octets
      obtain ⟨rfl, nothing⟩ := List.cons.inj letter
      obtain ⟨rfl, -⟩ := List.append_eq_nil_iff.1 nothing
      rw [← String.ofList_toList (s := kept), ← more, String.toList_ofList] at fits
      exact absurd fits (by decide +kernel)
  subst signs
  exact ⟨back, octets.trans (by decide +kernel)⟩

end ControlPlane.Wire
