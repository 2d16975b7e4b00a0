/-
Text through UTF-8 and back.

`decode_encode`: octets that a text was written in spell the same text. Reading
goes row by row through the table of well formed characters, and each row is one
lemma about the octets that it allows (`decodeChars_one` to `decodeChars_four`).
Octets without a zero spell characters without NUL, and the other way round. Octets that
were cut off spell the characters that were left whole, and a replacement for one that
was not (`decodeChars_take`).
-/
import ControlPlane.Text.Utf8

namespace ControlPlane.Utf8

/-! ## The rows of the table -/

theorem toNat_octet {n : Nat} (h : n < 256) : (UInt8.ofNat n).toNat = n :=
  UInt8.toNat_ofNat_of_lt' h

theorem isTail_iff {b : UInt8} : isTail b = true ↔ 0x80 ≤ b.toNat ∧ b.toNat ≤ 0xBF := by
  simp only [isTail, Bool.and_eq_true, decide_eq_true_eq, UInt8.le_iff_toNat_le, UInt8.reduceToNat]

theorem not_lt_of {a : UInt8} (h : 0x80 ≤ a.toNat) : ¬ a < 0x80 := by
  rw [UInt8.lt_iff_toNat_lt]
  exact Nat.not_lt.2 h

theorem decodeChars_one {a : UInt8} (ha : a.toNat < 0x80) (rest : Bytes) :
    decodeChars (a :: rest) = Char.ofNat a.toNat :: decodeChars rest := by
  have low : a < 0x80 := UInt8.lt_iff_toNat_lt.2 ha
  rw [decodeChars.eq_def]
  simp only [if_pos low]

theorem decodeChars_two {a b : UInt8} (ha : 0xC2 ≤ a.toNat ∧ a.toNat ≤ 0xDF)
    (hb : 0x80 ≤ b.toNat ∧ b.toNat ≤ 0xBF) (rest : Bytes) :
    decodeChars (a :: b :: rest) = join a 32 [b] :: decodeChars rest := by
  have high : ¬ a < 0x80 := not_lt_of (by omega)
  have pair : isPair a b = true := by
    simp only [isPair, isTail_iff.2 hb, Bool.and_true, Bool.and_eq_true, decide_eq_true_eq,
      UInt8.le_iff_toNat_le]
    exact ha
  rw [decodeChars.eq_def]
  simp only [if_neg high, if_pos pair]

/-- No first octet of three or four is one of two. -/
theorem isPair_of_high {a b : UInt8} (ha : 0xE0 ≤ a.toNat) : isPair a b = false := by
  have high : ¬ a.toNat ≤ 0xDF := by omega
  simp only [isPair, Bool.and_eq_false_iff, decide_eq_false_iff_not, UInt8.le_iff_toNat_le]
  exact .inl (.inr high)

theorem decodeChars_three {a b c : UInt8} (head : isTripleHead a b = true) (ha : 0xE0 ≤ a.toNat)
    (hc : 0x80 ≤ c.toNat ∧ c.toNat ≤ 0xBF) (rest : Bytes) :
    decodeChars (a :: b :: c :: rest) = join a 16 [b, c] :: decodeChars rest := by
  have high : ¬ a < 0x80 := not_lt_of (by omega)
  have pair : ¬ isPair a b = true := by simp [isPair_of_high ha]
  rw [decodeChars.eq_def]
  simp only [if_neg high, if_neg pair, if_pos head, if_pos (isTail_iff.2 hc)]

/-- No first octet of four is one of three. -/
theorem isTripleHead_of_high {a b : UInt8} (ha : 0xF0 ≤ a.toNat) : isTripleHead a b = false := by
  simp only [isTripleHead, Bool.or_eq_false_iff, Bool.and_eq_false_iff, decide_eq_false_iff_not,
    beq_eq_false_iff_ne, ne_eq, ← UInt8.toNat_inj, UInt8.le_iff_toNat_le, UInt8.reduceToNat]
  omega

theorem decodeChars_four {a b c d : UInt8} (head : isQuadHead a b = true) (ha : 0xF0 ≤ a.toNat)
    (hc : 0x80 ≤ c.toNat ∧ c.toNat ≤ 0xBF) (hd : 0x80 ≤ d.toNat ∧ d.toNat ≤ 0xBF) (rest : Bytes) :
    decodeChars (a :: b :: c :: d :: rest) = join a 8 [b, c, d] :: decodeChars rest := by
  have high : ¬ a < 0x80 := not_lt_of (by omega)
  have pair : ¬ isPair a b = true := by simp [isPair_of_high (b := b) (by omega : 0xE0 ≤ a.toNat)]
  have triple : ¬ isTripleHead a b = true := by simp [isTripleHead_of_high ha]
  rw [decodeChars.eq_def]
  simp only [if_neg high, if_neg pair, if_neg triple, if_pos head, if_pos (isTail_iff.2 hc),
    if_pos (isTail_iff.2 hd)]

/-! ## A character and a text -/

/-- The number of a character: below the surrogates or above them. -/
theorem number_ranges (c : Char) : c.toNat < 0xD800 ∨ (0xDFFF < c.toNat ∧ c.toNat < 0x110000) :=
  c.valid

/-- Octets of a character, by the row of the table that they stand in. -/
inductive Row (c : Char) : Bytes → Prop
  | one {a : UInt8} (ha : a.toNat < 0x80) (spells : Char.ofNat a.toNat = c) : Row c [a]
  | two {a b : UInt8} (ha : 0xC2 ≤ a.toNat ∧ a.toNat ≤ 0xDF) (hb : 0x80 ≤ b.toNat ∧ b.toNat ≤ 0xBF)
      (spells : join a 32 [b] = c) : Row c [a, b]
  | three {a b d : UInt8} (ha : 0xE0 ≤ a.toNat) (head : isTripleHead a b = true)
      (hd : 0x80 ≤ d.toNat ∧ d.toNat ≤ 0xBF) (spells : join a 16 [b, d] = c) : Row c [a, b, d]
  | four {a b d e : UInt8} (ha : 0xF0 ≤ a.toNat) (head : isQuadHead a b = true)
      (hd : 0x80 ≤ d.toNat ∧ d.toNat ≤ 0xBF) (he : 0x80 ≤ e.toNat ∧ e.toNat ≤ 0xBF)
      (spells : join a 8 [b, d, e] = c) : Row c [a, b, d, e]

/-- A character is written in a row of the table. -/
theorem row_encodeChar (c : Char) : Row c (String.utf8EncodeChar c) := by
  have ranges := number_ranges c
  have back : Char.ofNat c.toNat = c := Char.ofNat_toNat c
  have val : c.val.toNat = c.toNat := rfl
  generalize c.toNat = n at ranges back val
  simp only [String.utf8EncodeChar, val]
  by_cases one : n ≤ 0x7F
  · have ha : (UInt8.ofNat n).toNat = n := toNat_octet (by omega)
    rw [if_pos one]
    exact .one (by omega) (by rw [ha, back])
  by_cases two : n ≤ 0x7FF
  · have ha : (UInt8.ofNat (n / 64 % 32 + 192)).toNat = n / 64 % 32 + 192 := toNat_octet (by omega)
    have hb : (UInt8.ofNat (n % 64 + 128)).toNat = n % 64 + 128 := toNat_octet (by omega)
    have joined : join (UInt8.ofNat (n / 64 % 32 + 192)) 32 [UInt8.ofNat (n % 64 + 128)] = c := by
      simp only [join, List.foldl_cons, List.foldl_nil, ha, hb]
      rw [← back]
      congr 1
      omega
    rw [if_neg one, if_pos two]
    exact .two (by omega) (by omega) joined
  by_cases three : n ≤ 0xFFFF
  · have ha : (UInt8.ofNat (n / 4096 % 16 + 224)).toNat = n / 4096 % 16 + 224 := toNat_octet (by omega)
    have hb : (UInt8.ofNat (n / 64 % 64 + 128)).toNat = n / 64 % 64 + 128 := toNat_octet (by omega)
    have hc : (UInt8.ofNat (n % 64 + 128)).toNat = n % 64 + 128 := toNat_octet (by omega)
    have joined : join (UInt8.ofNat (n / 4096 % 16 + 224)) 16
        [UInt8.ofNat (n / 64 % 64 + 128), UInt8.ofNat (n % 64 + 128)] = c := by
      simp only [join, List.foldl_cons, List.foldl_nil, ha, hb, hc]
      rw [← back]
      congr 1
      omega
    -- shorter spellings and surrogates are left out of the row, and `n` is neither
    have head : isTripleHead (UInt8.ofNat (n / 4096 % 16 + 224)) (UInt8.ofNat (n / 64 % 64 + 128)) = true := by
      simp only [isTripleHead, isTail, Bool.or_eq_true, Bool.and_eq_true, decide_eq_true_eq, beq_iff_eq,
        ← UInt8.toNat_inj, UInt8.le_iff_toNat_le, ha, hb, UInt8.reduceToNat]
      omega
    rw [if_neg one, if_neg two, if_pos three]
    exact .three (by omega) head (by omega) joined
  · have ha : (UInt8.ofNat (n / 262144 % 8 + 240)).toNat = n / 262144 % 8 + 240 := toNat_octet (by omega)
    have hb : (UInt8.ofNat (n / 4096 % 64 + 128)).toNat = n / 4096 % 64 + 128 := toNat_octet (by omega)
    have hc : (UInt8.ofNat (n / 64 % 64 + 128)).toNat = n / 64 % 64 + 128 := toNat_octet (by omega)
    have hd : (UInt8.ofNat (n % 64 + 128)).toNat = n % 64 + 128 := toNat_octet (by omega)
    have joined : join (UInt8.ofNat (n / 262144 % 8 + 240)) 8 [UInt8.ofNat (n / 4096 % 64 + 128),
        UInt8.ofNat (n / 64 % 64 + 128), UInt8.ofNat (n % 64 + 128)] = c := by
      simp only [join, List.foldl_cons, List.foldl_nil, ha, hb, hc, hd]
      rw [← back]
      congr 1
      omega
    have head : isQuadHead (UInt8.ofNat (n / 262144 % 8 + 240)) (UInt8.ofNat (n / 4096 % 64 + 128)) = true := by
      simp only [isQuadHead, isTail, Bool.or_eq_true, Bool.and_eq_true, decide_eq_true_eq, beq_iff_eq,
        ← UInt8.toNat_inj, UInt8.le_iff_toNat_le, ha, hb, UInt8.reduceToNat]
      omega
    rw [if_neg one, if_neg two, if_neg three]
    exact .four (by omega) head (by omega) (by omega) joined

theorem decodeChars_encodeChar (c : Char) (rest : Bytes) :
    decodeChars (String.utf8EncodeChar c ++ rest) = c :: decodeChars rest := by
  have row := row_encodeChar c
  generalize String.utf8EncodeChar c = octets at row
  cases row with
  | one ha spells => rw [← spells]; exact decodeChars_one ha rest
  | two ha hb spells => rw [← spells]; exact decodeChars_two ha hb rest
  | three ha head hd spells => rw [← spells]; exact decodeChars_three head ha hd rest
  | four ha head hd he spells => rw [← spells]; exact decodeChars_four head ha hd he rest

theorem decodeChars_flatMap (cs : List Char) : decodeChars (cs.flatMap String.utf8EncodeChar) = cs := by
  induction cs with
  | nil => rfl
  | cons c cs ih => rw [List.flatMap_cons, decodeChars_encodeChar, ih]

/-- **A text comes back from its octets.** -/
theorem decode_encode (s : String) : decode (encode s) = s := by
  rw [decode, encode, decodeChars_flatMap, String.ofList_toList]

/-! ## How many octets a text takes -/

theorem length_encode (s : String) : (encode s).length = s.utf8ByteSize := by
  have size : ∀ cs : List Char, (cs.flatMap String.utf8EncodeChar).length = (String.ofList cs).utf8ByteSize := by
    intro cs
    rw [String.utf8ByteSize, String.toByteArray_ofList, List.utf8Encode, List.size_toByteArray]
  rw [encode, size, String.ofList_toList]

theorem size_eq (cs : List Char) : size cs = (cs.flatMap String.utf8EncodeChar).length := by
  induction cs with
  | nil => rfl
  | cons c cs ih => rw [size, List.flatMap_cons, List.length_append, String.length_utf8EncodeChar, ih]

theorem size_toList (s : String) : size s.toList = s.utf8ByteSize := by
  rw [size_eq, ← encode, length_encode]

theorem size_append (cs ds : List Char) : size (cs ++ ds) = size cs + size ds := by
  simp only [size_eq, List.flatMap_append, List.length_append]

/-! ## Octets that are cut off -/

/-- The first octets of a character, of which some are missing, spell no character: one replacement stands
for them. -/
theorem decodeChars_of_short {c : Char} {n : Nat} (some : 0 < n) (short : n < c.utf8Size) :
    decodeChars ((String.utf8EncodeChar c).take n) = [replacement] := by
  have row := row_encodeChar c
  rw [← String.length_utf8EncodeChar] at short
  generalize String.utf8EncodeChar c = octets at row short
  cases row with
  | one => simp at short; omega
  | @two a b ha =>
    obtain rfl : n = 1 := by simp at short; omega
    have high : ¬ a < 0x80 := not_lt_of (by omega)
    simp [decodeChars.eq_def, high]
  | @three a b d ha head =>
    have high : ¬ a < 0x80 := not_lt_of (by omega)
    have pair := isPair_of_high (b := b) ha
    obtain rfl | rfl : n = 1 ∨ n = 2 := by simp at short; omega
    · simp [decodeChars.eq_def, high]
    · simp [decodeChars.eq_def, high, pair, head]
  | @four a b d e ha head hd =>
    have high : ¬ a < 0x80 := not_lt_of (by omega)
    have pair := isPair_of_high (b := b) (Nat.le_trans (by omega) ha)
    have triple := isTripleHead_of_high (b := b) ha
    obtain rfl | rfl | rfl : n = 1 ∨ n = 2 ∨ n = 3 := by simp at short; omega
    · simp [decodeChars.eq_def, high]
    · simp [decodeChars.eq_def, high, pair, triple, head]
    · simp [decodeChars.eq_def, high, pair, triple, head, isTail_iff.2 hd]

/-- What is read of characters when their octets were cut off after `room`: the last one may have lost
some of its own. -/
def severed : (room : Nat) → List Char → List Char
  | _, [] => []
  | room, c :: cs =>
    if c.utf8Size ≤ room then c :: severed (room - c.utf8Size) cs
    else if room = 0 then []
    else [replacement]

theorem decodeChars_take (room : Nat) (cs : List Char) :
    decodeChars ((cs.flatMap String.utf8EncodeChar).take room) = severed room cs := by
  induction cs generalizing room with
  | nil => simp [severed, decodeChars]
  | cons c cs ih =>
    rw [List.flatMap_cons, List.take_append, String.length_utf8EncodeChar, severed]
    split
    · next fits =>
      rw [List.take_of_length_le (by rwa [String.length_utf8EncodeChar]), decodeChars_encodeChar, ih]
    · next short =>
      rw [Nat.sub_eq_zero_of_le (by omega), List.take_zero, List.append_nil]
      split
      · next empty => rw [empty, List.take_zero, decodeChars]
      · next some => exact decodeChars_of_short (by omega) (by omega)

theorem utf8Size_le_size {c : Char} {cs : List Char} (h : c ∈ cs) : c.utf8Size ≤ size cs := by
  induction cs with
  | nil => cases h
  | cons d cs ih =>
    rw [size]
    rcases List.mem_cons.1 h with rfl | h
    · omega
    · have := ih h
      omega

/-- Characters come back whole when there is room for them, and also when the last one is the replacement,
of which an octet at least is left. -/
theorem severed_eq_self_iff {room : Nat} {cs : List Char} :
    severed room cs = cs ↔ size cs ≤ room ∨ size cs ≤ room + 2 ∧ cs.getLast? = some replacement := by
  induction cs generalizing room with
  | nil => simp [severed, size]
  | cons c cs ih =>
    have positive := c.utf8Size_pos
    have whole : size (c :: cs) = c.utf8Size + size cs := rfl
    rw [severed, whole]
    split
    · next fits =>
      rw [List.cons.injEq, and_iff_right rfl, ih]
      cases cs with
      | nil => exact iff_of_true (.inl (Nat.zero_le _)) (.inl fits)
      | cons d cs =>
        rw [List.getLast?_cons_cons]
        exact or_congr (by omega) (and_congr_left fun _ => by omega)
    · next short =>
      have three : replacement.utf8Size = 3 := rfl
      cases cs with
      | nil =>
        rw [List.getLast?_singleton, Option.some.injEq, size]
        split
        · next empty =>
          refine iff_of_false (List.cons_ne_nil _ _).symm ?_
          rintro (fits | ⟨fits, rfl⟩) <;> omega
        · next some =>
          constructor
          · intro same
            cases same
            exact .inr ⟨by omega, rfl⟩
          · rintro (fits | ⟨-, rfl⟩)
            · omega
            · rfl
      | cons d cs =>
        refine iff_of_false (by split <;> simp) ?_
        rintro (fits | ⟨fits, last⟩)
        · omega
        · -- The replacement at the end takes three octets itself.
          have := utf8Size_le_size (List.mem_of_getLast? ((List.getLast?_cons_cons ..).symm.trans last))
          omega

/-- What was cut off once is whole, or ends in a replacement for what was cut. -/
theorem size_severed (room : Nat) (cs : List Char) :
    size (severed room cs) ≤ room ∨
      size (severed room cs) ≤ room + 2 ∧ (severed room cs).getLast? = some replacement := by
  induction cs generalizing room with
  | nil => exact .inl (Nat.zero_le _)
  | cons c cs ih =>
    rw [severed]
    split
    · next fits =>
      rw [size]
      obtain whole | ⟨size, last⟩ := ih (room - c.utf8Size)
      · exact .inl (by omega)
      · refine .inr ⟨by omega, ?_⟩
        rw [List.getLast?_cons, last, Option.getD_some]
    · split
      · next empty => exact .inl (Nat.zero_le _)
      · next some =>
        have three : size [replacement] = 3 := rfl
        exact .inr ⟨by omega, rfl⟩

theorem severed_severed (room : Nat) (cs : List Char) : severed room (severed room cs) = severed room cs :=
  severed_eq_self_iff.2 (size_severed room cs)

/-! ## NUL and the zero octet -/

theorem encodeChar_ne_zero {c : Char} (h : c ≠ '\x00') : ∀ b ∈ String.utf8EncodeChar c, b ≠ 0 := by
  intro b hb zero
  have positive : 0 < c.toNat := by
    refine Nat.pos_of_ne_zero fun z => h ?_
    rw [← Char.ofNat_toNat c, z]
  have val : c.val.toNat = c.toNat := rfl
  generalize c.toNat = n at positive val
  subst zero
  simp only [String.utf8EncodeChar, val] at hb
  -- the octets after the first have their high bit set, and so has the first unless it is alone
  split at hb
  · simp only [List.mem_singleton, ← UInt8.toNat_inj, UInt8.toNat_ofNat', UInt8.reduceToNat] at hb
    omega
  split at hb
  · simp only [List.mem_cons, List.not_mem_nil, or_false, ← UInt8.toNat_inj, UInt8.toNat_ofNat',
      UInt8.reduceToNat] at hb
    omega
  split at hb
  · simp only [List.mem_cons, List.not_mem_nil, or_false, ← UInt8.toNat_inj, UInt8.toNat_ofNat',
      UInt8.reduceToNat] at hb
    omega
  · simp only [List.mem_cons, List.not_mem_nil, or_false, ← UInt8.toNat_inj, UInt8.toNat_ofNat',
      UInt8.reduceToNat] at hb
    omega

/-- The octets before the first zero are those of the characters before the first NUL. -/
theorem takeWhile_flatMap (cs : List Char) :
    (cs.flatMap String.utf8EncodeChar).takeWhile (· != 0) =
      (cs.takeWhile (· != '\x00')).flatMap String.utf8EncodeChar := by
  induction cs with
  | nil => rfl
  | cons c cs ih =>
    rw [List.flatMap_cons]
    by_cases nul : c = '\x00'
    · subst nul
      rfl
    · have octets : ∀ b ∈ String.utf8EncodeChar c, (b != 0) = true :=
        fun b hb => bne_iff_ne.2 (encodeChar_ne_zero nul b hb)
      have first : (c != '\x00') = true := bne_iff_ne.2 nul
      rw [List.takeWhile_append_of_pos octets, ih, List.takeWhile_cons, if_pos first, List.flatMap_cons]

theorem ofNat_ne_nul {n : Nat} (valid : n.isValidChar) (positive : 0 < n) : Char.ofNat n ≠ '\x00' := by
  intro nul
  have same : (Char.ofNat n).toNat = n := by
    rw [Char.ofNat, dif_pos valid]
    rfl
  have zero : (Char.ofNat n).toNat = 0 := by rw [nul]; rfl
  omega

theorem join_pair_ne_nul {a b : UInt8} (h : isPair a b = true) : join a 32 [b] ≠ '\x00' := by
  simp only [isPair, Bool.and_eq_true, decide_eq_true_eq, UInt8.le_iff_toNat_le, UInt8.reduceToNat] at h
  refine ofNat_ne_nul ?_ ?_ <;> simp only [List.foldl_cons, List.foldl_nil]
  · left
    omega
  · omega

theorem join_triple_ne_nul {a b c : UInt8} (h : isTripleHead a b = true) :
    join a 16 [b, c] ≠ '\x00' := by
  simp only [isTripleHead, isTail, Bool.or_eq_true, Bool.and_eq_true, decide_eq_true_eq, beq_iff_eq,
    ← UInt8.toNat_inj, UInt8.le_iff_toNat_le, UInt8.reduceToNat] at h
  refine ofNat_ne_nul ?_ ?_ <;> simp only [List.foldl_cons, List.foldl_nil]
  · rw [Nat.isValidChar]
    omega
  · omega

theorem join_quad_ne_nul {a b c d : UInt8} (h : isQuadHead a b = true) :
    join a 8 [b, c, d] ≠ '\x00' := by
  simp only [isQuadHead, isTail, Bool.or_eq_true, Bool.and_eq_true, decide_eq_true_eq, beq_iff_eq,
    ← UInt8.toNat_inj, UInt8.le_iff_toNat_le, UInt8.reduceToNat] at h
  refine ofNat_ne_nul ?_ ?_ <;> simp only [List.foldl_cons, List.foldl_nil]
  · right
    omega
  · omega

theorem replacement_ne_nul : replacement ≠ '\x00' := by decide

/-- Octets without a zero spell no NUL. -/
theorem nul_not_mem_decodeChars {bs : Bytes} (h : ∀ b ∈ bs, b ≠ 0) : '\x00' ∉ decodeChars bs := by
  have skipped : ∀ cs : List Char, '\x00' ∉ cs → '\x00' ∉ replacement :: cs := by
    intro cs hcs
    exact List.not_mem_cons_of_ne_of_not_mem replacement_ne_nul.symm hcs
  fun_induction decodeChars bs with
  | case1 => exact List.not_mem_nil
  | case2 a t low ih =>
    have first : Char.ofNat a.toNat ≠ '\x00' := by
      have nonzero : a.toNat ≠ 0 := fun z => h a List.mem_cons_self (UInt8.toNat_inj.1 z)
      have bound := a.toNat_lt
      exact ofNat_ne_nul (.inl (by omega)) (by omega)
    exact List.not_mem_cons_of_ne_of_not_mem first.symm (ih fun b hb => h b (.tail _ hb))
  | case4 a low b u pair ih =>
    exact List.not_mem_cons_of_ne_of_not_mem (join_pair_ne_nul pair).symm
      (ih fun x hx => h x (.tail _ (.tail _ hx)))
  | case6 a low b pair head c v tail ih =>
    exact List.not_mem_cons_of_ne_of_not_mem (join_triple_ne_nul head).symm
      (ih fun x hx => h x (.tail _ (.tail _ (.tail _ hx))))
  | case10 a low b pair triple head c hc d w hd ih =>
    exact List.not_mem_cons_of_ne_of_not_mem (join_quad_ne_nul head).symm
      (ih fun x hx => h x (.tail _ (.tail _ (.tail _ (.tail _ hx)))))
  | case3 | case5 | case8 | case9 => exact skipped [] List.not_mem_nil
  | case7 _ _ _ _ _ _ _ _ ih => exact skipped _ (ih fun x hx => h x (.tail _ (.tail _ hx)))
  | case11 _ _ _ _ _ _ _ _ _ _ _ ih => exact skipped _ (ih fun x hx => h x (.tail _ (.tail _ (.tail _ hx))))
  | case12 _ _ _ _ _ _ _ _ _ ih => exact skipped _ (ih fun x hx => h x (.tail _ (.tail _ hx)))
  | case13 _ _ _ _ _ _ _ ih => exact skipped _ (ih fun x hx => h x (.tail _ hx))

end ControlPlane.Utf8
