/-
Texts cut at a character boundary.

A place among the octets of a text is a boundary exactly when whole characters stand in front of it
(`isBoundary_iff`), since the first octet of a character continues none and the others do. So the last
boundary within some room, sought backwards, ends the longest beginning of the text that has room
(`take_boundaryBefore`).
-/
import ControlPlane.Proofs.Text.Utf8
import Mathlib.Data.Nat.Find

namespace ControlPlane.Utf8

/-! ## Whole characters from the front -/

/-- The longest run of whole characters from the front that takes at most
`room` octets. -/
def takeChars : (room : Nat) → List Char → List Char
  | _, [] => []
  | room, c :: cs => if c.utf8Size ≤ room then c :: takeChars (room - c.utf8Size) cs else []

/-- A text cut to `room` octets at a character boundary. -/
def cut (room : Nat) (s : String) : String := String.ofList (takeChars room s.toList)

theorem takeChars_prefix_of (room : Nat) (cs : List Char) : takeChars room cs <+: cs := by
  induction cs generalizing room with
  | nil => simp [takeChars]
  | cons c cs ih =>
    rw [takeChars]
    split
    · exact List.cons_prefix_cons.2 ⟨rfl, ih _⟩
    · exact List.nil_prefix

theorem size_takeChars_le (room : Nat) (cs : List Char) : size (takeChars room cs) ≤ room := by
  induction cs generalizing room with
  | nil => simp [takeChars, size]
  | cons c cs ih =>
    rw [takeChars]
    split
    · have := ih (room - c.utf8Size)
      rw [size]
      omega
    · simp [size]

/-- No longer run of characters from the front has room. -/
theorem prefix_takeChars {room : Nat} {front cs : List Char} (h : front <+: cs) (fits : size front ≤ room) :
    front <+: takeChars room cs := by
  induction cs generalizing room front with
  | nil => simpa [takeChars] using h
  | cons c cs ih =>
    cases front with
    | nil => exact List.nil_prefix
    | cons d front =>
      obtain ⟨rfl, rest⟩ := List.cons_prefix_cons.1 h
      rw [size] at fits
      rw [takeChars, if_pos (by omega)]
      exact List.cons_prefix_cons.2 ⟨rfl, ih rest (by omega)⟩

theorem takeChars_of_size_le {room : Nat} {cs : List Char} (h : size cs ≤ room) :
    takeChars room cs = cs := by
  induction cs generalizing room with
  | nil => rfl
  | cons c cs ih =>
    rw [size] at h
    have fits : c.utf8Size ≤ room := by omega
    rw [takeChars, if_pos fits, ih (by omega)]

theorem cut_prefix_of (room : Nat) (s : String) : (cut room s).toList <+: s.toList := by
  rw [cut, String.toList_ofList]
  exact takeChars_prefix_of room s.toList

theorem utf8ByteSize_cut_le (room : Nat) (s : String) : (cut room s).utf8ByteSize ≤ room := by
  rw [← size_toList, cut, String.toList_ofList]
  exact size_takeChars_le room s.toList

/-- A text cut to a room is the longest beginning that has room. -/
theorem prefix_cut {room : Nat} {front s : String} (h : front.toList <+: s.toList)
    (fits : front.utf8ByteSize ≤ room) : front.toList <+: (cut room s).toList := by
  rw [cut, String.toList_ofList]
  exact prefix_takeChars h (by rwa [size_toList])

/-- A text that fits is not cut. -/
theorem cut_of_fits {room : Nat} {s : String} (h : s.utf8ByteSize ≤ room) : cut room s = s := by
  have fits : size s.toList ≤ room := by rwa [size_toList]
  rw [cut, takeChars_of_size_le fits, String.ofList_toList]

theorem cut_eq_self_iff {room : Nat} {s : String} : cut room s = s ↔ s.utf8ByteSize ≤ room :=
  ⟨fun same => same ▸ utf8ByteSize_cut_le room s, cut_of_fits⟩

theorem cut_cut (room : Nat) (s : String) : cut room (cut room s) = cut room s :=
  cut_of_fits (utf8ByteSize_cut_le room s)

/-! ## Boundaries among octets -/

theorem isTail_of_isTripleHead {a b : UInt8} (h : isTripleHead a b = true) : isTail b = true := by
  simp only [isTripleHead, isTail_iff, Bool.or_eq_true, Bool.and_eq_true, decide_eq_true_eq,
    UInt8.le_iff_toNat_le, UInt8.reduceToNat] at h ⊢
  omega

theorem isTail_of_isQuadHead {a b : UInt8} (h : isQuadHead a b = true) : isTail b = true := by
  simp only [isQuadHead, isTail_iff, Bool.or_eq_true, Bool.and_eq_true, decide_eq_true_eq,
    UInt8.le_iff_toNat_le, UInt8.reduceToNat] at h ⊢
  omega

/-- The first octet of a character continues none, and all the others continue it. -/
theorem exists_head_tails (c : Char) :
    ∃ a tails, String.utf8EncodeChar c = a :: tails ∧ isTail a = false ∧ ∀ b ∈ tails, isTail b = true := by
  have outside : ∀ {a : UInt8}, a.toNat < 0x80 ∨ 0xBF < a.toNat → isTail a = false := by
    intro a range
    rw [← Bool.not_eq_true, isTail_iff]
    omega
  have row := row_encodeChar c
  generalize String.utf8EncodeChar c = octets at row
  cases row with
  | one ha => exact ⟨_, _, rfl, outside (.inl ha), List.forall_mem_nil _⟩
  | two ha hb => exact ⟨_, _, rfl, outside (.inr (by omega)), by simpa using isTail_iff.2 hb⟩
  | three ha head hd =>
    exact ⟨_, _, rfl, outside (.inr (by omega)), by simpa using ⟨isTail_of_isTripleHead head, isTail_iff.2 hd⟩⟩
  | four ha head hd he =>
    exact ⟨_, _, rfl, outside (.inr (by omega)),
      by simpa using ⟨isTail_of_isQuadHead head, isTail_iff.2 hd, isTail_iff.2 he⟩⟩

/-- A boundary is in front of the octets, behind them, or in front of one that continues no character. -/
theorem isBoundary_eq_true_iff {bs : Bytes} {place : Nat} :
    isBoundary bs place = true ↔ place = 0 ∨ place = bs.length ∨ ∃ b, bs[place]? = some b ∧ isTail b = false := by
  rw [isBoundary, Bool.or_eq_true, beq_iff_eq]
  refine or_congr_right ?_
  cases octet : bs[place]? with
  | none => simp
  | some b =>
    have inside : place ≠ bs.length := by
      rintro rfl
      simp at octet
    simp [inside]

/-- The octets of characters are none, or start with one that continues no character. -/
theorem head_not_tail (cs : List Char) :
    (cs.flatMap String.utf8EncodeChar).length = 0 ∨
      ∃ b, (cs.flatMap String.utf8EncodeChar)[0]? = some b ∧ isTail b = false := by
  cases cs with
  | nil => exact .inl rfl
  | cons c cs =>
    obtain ⟨a, tails, octets, first, -⟩ := exists_head_tails c
    refine .inr ⟨a, ?_, first⟩
    rw [List.flatMap_cons, octets]
    rfl

/-- Behind a first character a boundary is one among the octets that follow. -/
theorem isBoundary_cons {c : Char} {cs : List Char} {place : Nat} :
    isBoundary ((c :: cs).flatMap String.utf8EncodeChar) place = true ↔
      place = 0 ∨ c.utf8Size ≤ place ∧
        isBoundary (cs.flatMap String.utf8EncodeChar) (place - c.utf8Size) = true := by
  obtain ⟨a, tails, octets, -, continued⟩ := exists_head_tails c
  have width : (String.utf8EncodeChar c).length = c.utf8Size := String.length_utf8EncodeChar c
  have start := head_not_tail cs
  rw [List.flatMap_cons, isBoundary_eq_true_iff, isBoundary_eq_true_iff, List.length_append, width]
  refine or_congr_right' fun inside => ?_
  by_cases behind : c.utf8Size ≤ place
  · obtain ⟨k, rfl⟩ := Nat.exists_eq_add_of_le behind
    have octet : (String.utf8EncodeChar c ++ cs.flatMap String.utf8EncodeChar)[c.utf8Size + k]? =
        (cs.flatMap String.utf8EncodeChar)[k]? := by
      rw [List.getElem?_append_right (by omega), width, Nat.add_sub_cancel_left]
    rw [octet, Nat.add_sub_cancel_left, Nat.add_right_inj, and_iff_right behind]
    refine ⟨.inr, ?_⟩
    rintro (rfl | boundary)
    · exact start.imp_left Eq.symm
    · exact boundary
  · -- the octets behind the first one and before the next character continue this one
    refine iff_of_false ?_ fun h => behind h.1
    rintro (rfl | ⟨b, octet, first⟩)
    · omega
    · obtain ⟨k, rfl⟩ := Nat.exists_eq_succ_of_ne_zero inside
      rw [List.getElem?_append_left (by omega), octets, List.getElem?_cons_succ] at octet
      exact Bool.false_ne_true (first.symm.trans (continued b (List.mem_of_getElem? octet)))

/-- **Octets of characters can be divided just behind whole characters.** -/
theorem isBoundary_iff {cs : List Char} {place : Nat} :
    isBoundary (cs.flatMap String.utf8EncodeChar) place = true ↔ ∃ front, front <+: cs ∧ size front = place := by
  induction cs generalizing place with
  | nil =>
    rw [List.flatMap_nil, isBoundary_eq_true_iff]
    constructor
    · rintro (rfl | rfl | ⟨b, octet, -⟩)
      · exact ⟨[], List.nil_prefix, rfl⟩
      · exact ⟨[], List.nil_prefix, rfl⟩
      · cases octet
    · rintro ⟨front, none, rfl⟩
      rw [List.prefix_nil.1 none]
      exact .inl rfl
  | cons c cs ih =>
    rw [isBoundary_cons, ih]
    constructor
    · rintro (rfl | ⟨behind, front, rest, same⟩)
      · exact ⟨[], List.nil_prefix, rfl⟩
      · refine ⟨c :: front, List.cons_prefix_cons.2 ⟨rfl, rest⟩, ?_⟩
        rw [size, same]
        omega
    · rintro ⟨front, rest, rfl⟩
      cases front with
      | nil => exact .inl rfl
      | cons d front =>
        obtain ⟨rfl, behind⟩ := List.cons_prefix_cons.1 rest
        rw [size]
        exact .inr ⟨by omega, front, behind, by omega⟩

/-! ## The last boundary with room in front of it -/

/-- The search backwards finds the greatest boundary. -/
theorem boundaryBefore_eq_findGreatest (bs : Bytes) (place : Nat) :
    boundaryBefore bs place = Nat.findGreatest (isBoundary bs · = true) place := by
  induction place with
  | zero => rfl
  | succ place ih => rw [boundaryBefore, Nat.findGreatest_succ, ih]

theorem boundaryBefore_le (bs : Bytes) (place : Nat) : boundaryBefore bs place ≤ place := by
  rw [boundaryBefore_eq_findGreatest]
  exact Nat.findGreatest_le place

/-- The search does end at a boundary, since the front is one. -/
theorem isBoundary_boundaryBefore (bs : Bytes) (place : Nat) : isBoundary bs (boundaryBefore bs place) = true := by
  have front : isBoundary bs 0 = true := rfl
  rw [boundaryBefore_eq_findGreatest]
  exact Nat.findGreatest_spec (P := (isBoundary bs · = true)) (Nat.zero_le place) front

theorem le_boundaryBefore {bs : Bytes} {place limit : Nat} (h : place ≤ limit) (boundary : isBoundary bs place = true) :
    place ≤ boundaryBefore bs limit := by
  rw [boundaryBefore_eq_findGreatest]
  exact Nat.le_findGreatest h boundary

/-- The octets of a text have a boundary behind the text cut to some room. -/
theorem isBoundary_cut (room : Nat) (s : String) : isBoundary (encode s) (cut room s).utf8ByteSize = true :=
  isBoundary_iff.2 ⟨_, cut_prefix_of room s, size_toList _⟩

/-- No boundary within the room is further behind. -/
theorem boundary_le_cut {room place : Nat} {s : String} (within : place ≤ room)
    (boundary : isBoundary (encode s) place = true) : place ≤ (cut room s).utf8ByteSize := by
  obtain ⟨front, rest, rfl⟩ := isBoundary_iff.1 boundary
  obtain ⟨more, longest⟩ := prefix_takeChars rest within
  rw [← size_toList, cut, String.toList_ofList, ← longest, size_append]
  exact Nat.le_add_right _ _

/-- From the end of a text or of the room, the search ends behind the text cut to the room. -/
theorem boundaryBefore_encode (room : Nat) (s : String) :
    boundaryBefore (encode s) (min (encode s).length room) = (cut room s).utf8ByteSize := by
  have within : (cut room s).utf8ByteSize ≤ (encode s).length := by
    obtain ⟨rest, whole⟩ := cut_prefix_of room s
    rw [length_encode, ← size_toList s, ← whole, size_append, size_toList]
    exact Nat.le_add_right _ _
  refine Nat.le_antisymm ?_ ?_
  · exact boundary_le_cut (Nat.le_trans (boundaryBefore_le _ _) (Nat.min_le_right _ _))
      (isBoundary_boundaryBefore _ _)
  · exact le_boundaryBefore (Nat.le_min.2 ⟨within, utf8ByteSize_cut_le room s⟩) (isBoundary_cut room s)

/-- **What the search leaves of a text's octets is the text cut to the room.** -/
theorem take_boundaryBefore (room : Nat) (s : String) :
    (encode s).take (boundaryBefore (encode s) (min (encode s).length room)) = encode (cut room s) := by
  obtain ⟨rest, whole⟩ := cut_prefix_of room s
  have octets : encode s = encode (cut room s) ++ rest.flatMap String.utf8EncodeChar := by
    rw [encode, ← whole, List.flatMap_append, encode]
  rw [boundaryBefore_encode, ← length_encode, octets, List.take_left]

end ControlPlane.Utf8
