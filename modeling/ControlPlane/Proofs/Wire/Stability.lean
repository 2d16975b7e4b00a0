/-
Records with text, read and written again.

A field of names is sixteen octets wide and may be full when it is read, but fifteen are written; and octets
that spell no character are read as U+FFFD, which takes three. So a name or a text that was read can be too
long for its own field. What comes back of it is what the field carries, and from then on the record is
stable.

Main result: `written_text_stable`.
-/
import ControlPlane.Proofs.Wire.Reading

namespace ControlPlane.Wire

/-- A name that its field gives back: it takes at most fifteen octets, or one or two more and ends in a
replacement, of which what is left is read as a replacement again. -/
def Kept (name : String) : Prop :=
  name.utf8ByteSize ≤ 15 ∨ name.utf8ByteSize ≤ 17 ∧ name.toList.getLast? = some Utf8.replacement

/-- What the first fifteen octets of a name spell. -/
def shortened (name : String) : String := Utf8.decode ((Utf8.encode name).take 15)

section Names

variable {s : String}

theorem carried_of_nul_free (nulFree : '\x00' ∉ s.toList) : Layout.carried s = shortened s := by
  rw [Layout.carried, untilNul_eq_self_iff.2 nulFree, shortened, Utf8.decode, Utf8.encode, Utf8.decodeChars_take]
  rfl

theorem shortened_eq_self_iff (nulFree : '\x00' ∉ s.toList) : shortened s = s ↔ Kept s := by
  rw [← carried_of_nul_free nulFree, Layout.carried_eq_self_iff, and_iff_right nulFree, Layout.nameWidth, Kept]
  exact or_congr Nat.lt_succ_iff (and_congr_left fun _ => Nat.lt_succ_iff)

end Names

/-! ## What comes back of each record -/

/-- A route of which the next hop is of its family comes back with what its field of the name carries. -/
theorem Route.decode_encode_carried {r : Route} (family : r.nextHop.family = r.family.getD .v4) (action : Action) :
    decode (r.encode action) = .ok { r with interface := Layout.carried r.interface } := by
  obtain ⟨hop, read, same⟩ := decode_written r action
  rw [read, same family]

theorem nul_not_mem_of_decode {bs : Bytes} {i : Interface} (h : Interface.decode bs = .ok i) :
    '\x00' ∉ i.name.toList := by
  unfold Interface.decode at h
  split at h
  · cases h
  · cases h
    exact Layout.nul_not_mem_name _

/-- An event comes back with as much of its text as there is room for. -/
theorem HealthEvent.decode_encode_cut (e : HealthEvent) :
    decode e.encode = .ok { e with text := Utf8.cut textRoom e.text } := by
  have cut : e.encode = encode { e with text := Utf8.cut textRoom e.text } := by
    simp only [encode_eq, Utf8.cut_cut]
  rw [cut]
  exact decode_encode (Utf8.utf8ByteSize_cut_le textRoom e.text)

/-- **A route or an interface that was read, written and read again is the same but for its name, of which the
first fifteen octets come back; so it is the same exactly when that keeps the name. An event is the same but
for its text, of which the characters within sixty-four octets come back. What came back once comes back as
it is ever after.** -/
theorem written_text_stable :
    (∀ bs r, Route.decode bs = .ok r → ∀ action,
      Route.decode (r.encode action) = .ok { r with interface := shortened r.interface } ∧
      (Route.decode (r.encode action) = .ok r ↔ Kept r.interface) ∧
      ∀ r', Route.decode (r.encode action) = .ok r' → ∀ again, Route.decode (r'.encode again) = .ok r') ∧
    (∀ bs i, Interface.decode bs = .ok i → ∀ action,
      Interface.decode (i.encode action) = .ok { i with name := shortened i.name } ∧
      (Interface.decode (i.encode action) = .ok i ↔ Kept i.name) ∧
      ∀ i', Interface.decode (i.encode action) = .ok i' → ∀ again, Interface.decode (i'.encode again) = .ok i') ∧
    (∀ bs e, HealthEvent.decode bs = .ok e →
      HealthEvent.decode e.encode = .ok { e with text := Utf8.cut 64 e.text } ∧
      (HealthEvent.decode e.encode = .ok e ↔ e.text.utf8ByteSize ≤ 64) ∧
      ∀ e', HealthEvent.decode e.encode = .ok e' → HealthEvent.decode e'.encode = .ok e') := by
  refine ⟨fun bs r h action => ?_, fun bs i h action => ?_, fun bs e h => ?_⟩
  · obtain ⟨nulFree, family⟩ := Route.of_decode h
    have back := Route.decode_encode_carried family action
    have name := carried_of_nul_free nulFree
    refine ⟨name ▸ back, ?_, fun r' h' again => ?_⟩
    · rw [back, ← shortened_eq_self_iff nulFree, ← name, Except.ok.injEq]
      exact ⟨congrArg Route.interface, fun same => by rw [same]⟩
    · obtain rfl : _ = r' := Except.ok.inj (back.symm.trans h')
      have stable := Route.decode_encode_carried (r := { r with interface := Layout.carried r.interface }) family again
      rwa [Layout.carried_carried] at stable
  · have nulFree := nul_not_mem_of_decode h
    have back := decode_written_interface i action
    have name := carried_of_nul_free nulFree
    refine ⟨name ▸ back, ?_, fun i' h' again => ?_⟩
    · rw [back, ← shortened_eq_self_iff nulFree, ← name, Except.ok.injEq]
      exact ⟨congrArg Interface.name, fun same => by rw [same]⟩
    · obtain rfl : _ = i' := Except.ok.inj (back.symm.trans h')
      have stable := decode_written_interface { i with name := Layout.carried i.name } again
      rwa [Layout.carried_carried] at stable
  · have back := HealthEvent.decode_encode_cut e
    refine ⟨back, ?_, fun e' h' => ?_⟩
    · rw [back, ← Utf8.cut_eq_self_iff, Except.ok.injEq]
      exact ⟨congrArg HealthEvent.text, fun same => by rw [HealthEvent.textRoom, same]⟩
    · obtain rfl : _ = e' := Except.ok.inj (back.symm.trans h')
      have stable := HealthEvent.decode_encode_cut { e with text := Utf8.cut HealthEvent.textRoom e.text }
      rwa [Utf8.cut_cut] at stable

/-- Sixteen letters, which fill a field of names. -/
def sixteen : String := "abcdefghijklmnop"

/-- The octets of an interface of that name. -/
def namedFully : Bytes :=
  [0, 4, 0, 1, 0, 0, 0, 2] ++ Utf8.encode sixteen ++ [2, 0, 0, 0, 0, 0x22] ++ Bytes.zeros 10

/-- The interface that they spell. -/
def fullyNamed : Interface :=
  { Interface.blank with id := 2, name := sixteen, mac := .ofNumber 0x22, enabled := true }

/-- The octets of an event of which the text is as many octets that spell no character. -/
def illegible (n : UInt8) : Bytes := [0, 1, 0, n] ++ List.replicate n.toNat 0xFF ++ Bytes.zeros (64 - n.toNat)

/-- The event that they spell. -/
def replaced (n : Nat) : HealthEvent := ⟨1, .info, .ofList (List.replicate n Utf8.replacement)⟩

/-- A name that fills its field loses its last letter, and of twenty-two replacements one does not fit. -/
theorem full_field_shortened :
    (Interface.decode namedFully = .ok fullyNamed ∧
      Interface.decode (fullyNamed.encode .update) = .ok { fullyNamed with name := "abcdefghijklmno" } ∧
      Interface.decode (fullyNamed.encode .update) ≠ .ok fullyNamed) ∧
    (Route.decode ((Bytes.zeros 16 ++ Utf8.encode sixteen) ++ Bytes.zeros 28) =
        .ok { Route.ofId 0 with interface := sixteen } ∧
      Route.decode (Route.encode { Route.ofId 0 with interface := sixteen } .query) ≠
        .ok { Route.ofId 0 with interface := sixteen }) ∧
    (HealthEvent.decode (illegible 22) = .ok (replaced 22) ∧
      HealthEvent.decode (replaced 22).encode = .ok (replaced 21) ∧
      HealthEvent.decode (replaced 22).encode ≠ .ok (replaced 22)) := by
  decide +kernel

theorem written_text_stable_small :
    Interface.decode namedFully = .ok fullyNamed ∧
    Interface.decode (fullyNamed.encode .update) = .ok { fullyNamed with name := "abcdefghijklmno" } ∧
    HealthEvent.decode (illegible 21) = .ok (replaced 21) ∧ HealthEvent.decode (replaced 21).encode = .ok (replaced 21) ∧
    Route.decode (Bytes.zeros 60) = .ok (Route.ofId 0) ∧
    Route.decode ((Route.ofId 0).encode .deregister) = .ok (Route.ofId 0) := by
  obtain ⟨route, interface, health⟩ := written_text_stable
  have named : Interface.decode namedFully = .ok fullyNamed := by decide +kernel
  have read : HealthEvent.decode (illegible 21) = .ok (replaced 21) := by decide +kernel
  have zeros : Route.decode (Bytes.zeros 60) = .ok (Route.ofId 0) := by decide +kernel
  have short : shortened fullyNamed.name = "abcdefghijklmno" := by decide +kernel
  refine ⟨named, ?_, read, (health _ _ read).2.1.2 (by decide +kernel), zeros,
    (route _ _ zeros .deregister).2.1.2 (.inl (by decide))⟩
  rw [(interface _ _ named .update).1, short]

end ControlPlane.Wire
