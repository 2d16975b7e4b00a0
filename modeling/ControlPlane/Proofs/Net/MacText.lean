/-
Which texts spell a hardware address.

A text is cut at its separators, and each group of two octets is read as a number that may have a plus sign in
front. So a little more is read than six groups of two digits: a group may be a plus sign and one digit
(`Group`). A text without a plus sign is read exactly when it has the plain form (`Pair`), and then it is the
written form of its address but for the case of its digits and the kind of its separators.

Main result: `read_iff_spelled`.
-/
import ControlPlane.Error
import ControlPlane.Proofs.Text.Digits
import Mathlib.Data.List.Forall2

namespace ControlPlane

namespace Mac

/-! ## Groups -/

/-- Two digits, and the octet that they spell. -/
inductive Pair : List Char → UInt8 → Prop
  | digits {a b : Char} {high low : Nat} (first : Hex.IsDigitOf high a) (second : Hex.IsDigitOf low b) :
      Pair [a, b] (UInt8.ofNat (16 * high + low))

/-- A group that is read: two digits, or one behind a plus sign. -/
inductive Group : List Char → UInt8 → Prop
  | pair {g : List Char} {octet : UInt8} (digits : Pair g octet) : Group g octet
  | signed {b : Char} {low : Nat} (digit : Hex.IsDigitOf low b) : Group ['+', b] (UInt8.ofNat low)

variable {g : List Char} {octet : UInt8}

/-- Two octets of characters are two characters or a wide one. -/
theorem characters_of_size (h : Utf8.size g = 2) : (∃ c, g = [c] ∧ c.utf8Size ≠ 1) ∨ ∃ a b, g = [a, b] := by
  match g with
  | [] => cases h
  | [c] =>
    simp only [Utf8.size] at h
    exact .inl ⟨c, rfl, by omega⟩
  | [a, b] => exact .inr ⟨a, b, rfl⟩
  | a :: b :: c :: rest =>
    have := a.utf8Size_pos
    have := b.utf8Size_pos
    have := c.utf8Size_pos
    simp only [Utf8.size] at h
    omega

theorem Group.size (h : Group g octet) : Utf8.size g = 2 := by
  cases h with
  | pair digits =>
    obtain ⟨first, second⟩ := digits
    simp only [Utf8.size, first.utf8Size, second.utf8Size]
  | signed digit =>
    simp only [Utf8.size, digit.utf8Size]
    rfl

theorem octet?_pair_iff {a b : Char} : Hex.octet? [a, b] = some octet ↔ Group [a, b] octet := by
  by_cases plus : a = '+'
  · subst plus
    rw [Hex.octet?_signed, Option.map_eq_some_iff]
    constructor
    · rintro ⟨low, read, rfl⟩
      exact .signed (Hex.digit?_eq_some_iff.1 read)
    · rintro (⟨first, -⟩ | digit)
      · exact absurd rfl (first.ne_of_none (by decide))
      · exact ⟨_, Hex.digit?_eq_some_iff.2 digit, rfl⟩
  · rw [Hex.octet?_pair plus]
    constructor
    · intro read
      obtain ⟨high, first, read⟩ := Option.bind_eq_some_iff.1 read
      obtain ⟨low, second, rfl⟩ := Option.map_eq_some_iff.1 read
      exact .pair (.digits (Hex.digit?_eq_some_iff.1 first) (Hex.digit?_eq_some_iff.1 second))
    · rintro (⟨first, second⟩ | -)
      · rw [Hex.digit?_eq_some_iff.2 first, Hex.digit?_eq_some_iff.2 second]
        rfl
      · exact absurd rfl plus

theorem readGroup_eq_ok_iff : readGroup g = .ok octet ↔ Group g octet := by
  have read : readGroup g = .ok octet ↔ Utf8.size g = 2 ∧ Hex.octet? g = some octet := by
    rw [readGroup]
    by_cases size : Utf8.size g = 2
    · cases Hex.octet? g <;> simp [size]
    · simp [size]
  rw [read]
  constructor
  · rintro ⟨size, spelled⟩
    obtain ⟨c, rfl, wide⟩ | ⟨a, b, rfl⟩ := characters_of_size size
    · rw [Hex.octet?_wide wide] at spelled
      cases spelled
    · exact octet?_pair_iff.1 spelled
  · intro group
    obtain ⟨c, rfl, wide⟩ | ⟨a, b, rfl⟩ := characters_of_size group.size
    · cases group with
      | pair digits => cases digits
    · exact ⟨group.size, octet?_pair_iff.2 group⟩

theorem readGroups_eq_ok_iff {gs : List (List Char)} {octets : Bytes} :
    readGroups gs = .ok octets ↔ List.Forall₂ Group gs octets := by
  induction gs generalizing octets with
  | nil => rw [readGroups, List.forall₂_nil_left_iff, Except.ok.injEq, eq_comm]
  | cons g gs ih =>
    rw [List.forall₂_cons_left_iff, readGroups]
    constructor
    · intro read
      cases first : readGroup g with
      | error defect =>
        rw [first] at read
        cases read
      | ok octet =>
        rw [first] at read
        cases behind : readGroups gs with
        | error defect =>
          rw [behind] at read
          cases read
        | ok octets' =>
          rw [behind] at read
          cases read
          exact ⟨octet, octets', readGroup_eq_ok_iff.1 first, ih.1 behind, rfl⟩
    · rintro ⟨octet, octets', first, behind, rfl⟩
      rw [readGroup_eq_ok_iff.2 first, ih.2 behind]
      rfl

/-- In a group there are digits and plus signs. -/
theorem Group.not_mem {c : Char} (h : Group g octet) (none : Hex.digit? c = none) (plus : c ≠ '+') : c ∉ g := by
  cases h with
  | pair digits =>
    obtain ⟨first, second⟩ := digits
    simpa using ⟨(first.ne_of_none none).symm, (second.ne_of_none none).symm⟩
  | signed digit => simpa using ⟨plus, (digit.ne_of_none none).symm⟩

theorem Pair.not_mem {c : Char} (h : Pair g octet) (none : Hex.digit? c = none) : c ∉ g := by
  obtain ⟨first, second⟩ := h
  simpa using ⟨(first.ne_of_none none).symm, (second.ne_of_none none).symm⟩

/-- A group without a plus sign is two digits. -/
theorem Group.pair_of_not_mem (h : Group g octet) (plus : '+' ∉ g) : Pair g octet := by
  cases h with
  | pair digits => exact digits
  | signed digit => exact absurd List.mem_cons_self plus

/-- What each group is that spells an octet, all groups are that spell octets in order. -/
theorem forall_mem_of_forall₂ {group : List Char → UInt8 → Prop} {P : List Char → Prop} {gs : List (List Char)}
    {octets : Bytes} (h : List.Forall₂ group gs octets) (each : ∀ g octet, group g octet → P g) : ∀ g ∈ gs, P g :=
  ((List.forall₂_and_left gs octets).1 (h.imp fun g octet spelled => ⟨each g octet spelled, spelled⟩)).1

/-! ## Groups between separators -/

section Separators

variable {separator : Char} {gs : List (List Char)}

/-- What stands in separated groups: the separator, when there are two groups or more, and what the groups hold. -/
theorem mem_intercalate_iff {c : Char} :
    c ∈ [separator].intercalate gs ↔ (c = separator ∧ 2 ≤ gs.length) ∨ ∃ g ∈ gs, c ∈ g := by
  induction gs with
  | nil => simp
  | cons g gs ih =>
    cases gs with
    | nil => simp
    | cons g' gs =>
      rw [List.intercalate_cons_cons, List.append_assoc, List.mem_append, List.singleton_append, List.mem_cons, ih]
      simp only [List.length_cons, List.exists_mem_cons_iff]
      constructor
      · rintro (inside | rfl | ⟨rfl, -⟩ | behind)
        · exact .inr (.inl inside)
        · exact .inl ⟨rfl, by omega⟩
        · exact .inl ⟨rfl, by omega⟩
        · exact .inr (.inr behind)
      · rintro (⟨rfl, -⟩ | inside | behind)
        · exact .inr (.inl rfl)
        · exact .inl inside
        · exact .inr (.inr (.inr behind))

theorem map_intercalate (f : Char → Char) :
    ([separator].intercalate gs).map f = [f separator].intercalate (gs.map (List.map f)) := by
  induction gs with
  | nil => rfl
  | cons g gs ih =>
    cases gs with
    | nil => simp
    | cons g' gs =>
      rw [List.intercalate_cons_cons, List.map_append, List.map_append, ih]
      simp

/-- What separates groups. -/
def IsSeparator (c : Char) : Prop := c = ':' ∨ c = '-'

theorem exists_separator (s : List Char) : ∃ separator, IsSeparator separator ∧ s = [separator].intercalate (groups s) := by
  rw [groups]
  split
  · exact ⟨':', .inl rfl, (List.intercalate_splitOn ':').symm⟩
  · exact ⟨'-', .inr rfl, (List.intercalate_splitOn '-').symm⟩

/-- Two groups or more are found again when there are no separators in them. -/
theorem groups_intercalate (sep : IsSeparator separator) (free : ∀ g ∈ gs, ∀ c, IsSeparator c → c ∉ g)
    (several : 2 ≤ gs.length) : groups ([separator].intercalate gs) = gs := by
  have some : gs ≠ [] := by
    rintro rfl
    cases several
  rw [groups]
  obtain rfl | rfl := sep
  · have colon : ':' ∈ [':'].intercalate gs := mem_intercalate_iff.2 (.inl ⟨rfl, several⟩)
    rw [if_pos colon, List.splitOn_intercalate ':' (fun g hg => free g hg ':' (.inl rfl)) some]
  · have noColon : ':' ∉ ['-'].intercalate gs := by
      intro colon
      obtain ⟨same, -⟩ | ⟨g, hg, inside⟩ := mem_intercalate_iff.1 colon
      · cases same
      · exact free g hg ':' (.inl rfl) inside
    rw [if_neg noColon, List.splitOn_intercalate '-' (fun g hg => free g hg '-' (.inr rfl)) some]

end Separators

/-! ## Texts -/

/-- Six groups with one kind of separator between them spell the octets of an address, in order. -/
def Spelled (group : List Char → UInt8 → Prop) (text : String) (m : Mac) : Prop :=
  ∃ separator gs, IsSeparator separator ∧ List.Forall₂ group gs m.octets ∧
    text.toList = [separator].intercalate gs

variable {text : String} {m : Mac}

theorem ofText_eq_ok_iff : ofText text = .ok m ↔ List.Forall₂ Group (groups text.toList) m.octets := by
  rw [← readGroups_eq_ok_iff]
  simp only [ofText]
  constructor
  · intro read
    split at read
    · cases read
    split at read
    · cases read
    · next octets spelled =>
      split at read
      · cases read
        exact spelled
      · cases read
  · intro spelled
    have six : (groups text.toList).length = 6 := (length_readGroups spelled).symm.trans m.length_octets
    simp only [six, ne_eq, not_true_eq_false, if_false, spelled, m.length_octets, dite_true]

/-- **A text is read when it is six groups with one kind of separator between them.** -/
theorem ofText_eq_ok_iff_spelled : ofText text = .ok m ↔ Spelled Group text m := by
  rw [ofText_eq_ok_iff]
  constructor
  · intro spelled
    obtain ⟨separator, sep, whole⟩ := exists_separator text.toList
    exact ⟨separator, _, sep, spelled, whole⟩
  · rintro ⟨separator, gs, sep, spelled, whole⟩
    have free : ∀ g ∈ gs, ∀ c, IsSeparator c → c ∉ g := by
      refine forall_mem_of_forall₂ spelled fun g octet group => ?_
      rintro c (rfl | rfl)
      · exact group.not_mem (by decide) (by decide)
      · exact group.not_mem (by decide) (by decide)
    have several : 2 ≤ gs.length := by
      rw [spelled.length_eq, m.length_octets]
      decide
    rwa [whole, groups_intercalate sep free several]

/-- The plain form is what is read of texts without a plus sign. -/
theorem spelled_pair_iff : Spelled Pair text m ↔ Spelled Group text m ∧ '+' ∉ text.toList := by
  constructor
  · rintro ⟨separator, gs, sep, spelled, whole⟩
    refine ⟨⟨separator, gs, sep, spelled.imp fun _ _ => .pair, whole⟩, fun plus => ?_⟩
    have free : ∀ g ∈ gs, '+' ∉ g :=
      forall_mem_of_forall₂ spelled fun g octet digits => digits.not_mem (by decide)
    rw [whole] at plus
    obtain ⟨rfl, -⟩ | ⟨g, hg, inside⟩ := mem_intercalate_iff.1 plus
    · obtain same | same := sep
      · cases same
      · cases same
    · exact free g hg inside
  · rintro ⟨⟨separator, gs, sep, spelled, whole⟩, plus⟩
    rw [whole] at plus
    have free : ∀ g ∈ gs, '+' ∉ g := fun g hg inside => plus (mem_intercalate_iff.2 (.inr ⟨g, hg, inside⟩))
    have both := (List.forall₂_and_left gs m.octets).2 ⟨free, spelled⟩
    exact ⟨separator, gs, sep, both.imp fun g octet h => h.2.pair_of_not_mem h.1, whole⟩

/-! ## The written form -/

/-- The octets of an address in groups of two digits in lower case. -/
def pairs (octets : Bytes) : List (List Char) := octets.map fun b => Hex.digits 2 b.toNat

/-- The written form has colons between the groups. -/
theorem toList_render (m : Mac) : m.render.toList = [':'].intercalate (pairs m.octets) := by
  simp [render, Hex.lower, pairs, Function.comp_def]

theorem pair_digits (b : UInt8) : Pair (Hex.digits 2 b.toNat) b := by
  have lt := b.toNat_lt
  have octet : UInt8.ofNat (16 * (b.toNat / 16 % 16) + b.toNat % 16) = b := by
    rw [← UInt8.toNat_inj, UInt8.toNat_ofNat']
    omega
  have pair := Pair.digits (a := (b.toNat / 16 % 16).digitChar) (b := (b.toNat % 16).digitChar)
    ⟨Nat.mod_lt _ (by decide), .inl rfl⟩ ⟨Nat.mod_lt _ (by decide), .inl rfl⟩
  rwa [octet] at pair

theorem spelled_render (m : Mac) : Spelled Pair m.render m := by
  refine ⟨':', pairs m.octets, .inl rfl, ?_, toList_render m⟩
  rw [pairs, List.forall₂_map_left_iff, List.forall₂_same]
  exact fun b _ => pair_digits b

/-- A character of the plain form as it is written: a colon for a hyphen, and letters in lower case. -/
def plainly (c : Char) : Char := if c = '-' then ':' else c.toLower

theorem plainly_digit {value : Nat} {c : Char} (h : Hex.IsDigitOf value c) : plainly c = value.digitChar := by
  obtain ⟨lt, rfl | rfl⟩ := h
  · interval_cases value <;> rfl
  · interval_cases value <;> rfl

theorem Pair.map_plainly (h : Pair g octet) : g.map plainly = Hex.digits 2 octet.toNat := by
  obtain @⟨a, b, high, low, first, second⟩ := h
  have hi := first.lt
  have lo := second.lt
  have number : (UInt8.ofNat (16 * high + low)).toNat = 16 * high + low := by
    rw [UInt8.toNat_ofNat']
    omega
  have front : (16 * high + low) / 16 % 16 = high := by omega
  have last : (16 * high + low) % 16 = low := by omega
  rw [number]
  simp only [Hex.digits, front, last, List.map_cons, List.map_nil, plainly_digit first, plainly_digit second,
    List.nil_append, List.cons_append]

theorem map_plainly {gs : List (List Char)} {octets : Bytes} (h : List.Forall₂ Pair gs octets) :
    gs.map (List.map plainly) = pairs octets := by
  induction h with
  | nil => rfl
  | cons pair _ ih =>
    rw [List.map_cons, pair.map_plainly, ih]
    rfl

/-- A text in the plain form is the written one, but for its case and its separators. -/
theorem toList_render_of_spelled (h : Spelled Pair text m) : m.render.toList = text.toList.map plainly := by
  obtain ⟨separator, gs, sep, spelled, whole⟩ := h
  have colon : plainly separator = ':' := by
    obtain rfl | rfl := sep
    · rfl
    · rfl
  rw [whole, map_intercalate, colon, map_plainly spelled, toList_render]

theorem parse_eq_ok_iff : parse text = .ok m ↔ ofText text = .ok m := by
  rw [parse]
  cases ofText text <;> simp

/-- **A text is read as an address exactly when it is six groups, separated all by colons or all by hyphens, of two
digits of either case or of a plus sign and a digit, that spell the octets in order.** Without plus signs it is
exactly the plain form, which the written form of the address is but for the case of the digits and the kind of
the separators. What is written of an address has the plain form and is read as that address. -/
theorem read_iff_spelled (text : String) (m : Mac) :
    (parse text = .ok m ↔ Spelled Group text m) ∧
    (Spelled Pair text m ↔ parse text = .ok m ∧ '+' ∉ text.toList) ∧
    (Spelled Pair text m → m.render.toList = text.toList.map plainly) ∧
    Spelled Pair m.render m ∧ parse m.render = .ok m := by
  have read : ∀ text, parse text = .ok m ↔ Spelled Group text m :=
    fun _ => parse_eq_ok_iff.trans ofText_eq_ok_iff_spelled
  have written := spelled_render m
  refine ⟨read text, ?_, toList_render_of_spelled, written, (read _).2 (spelled_pair_iff.1 written).1⟩
  rw [read]
  exact spelled_pair_iff

/-- Letters in both cases and hyphens. -/
theorem read_iff_spelled_small :
    let m : Mac := .ofBytes [0xAA, 0xBB, 0, 0x1D, 0xEE, 0xFF]
    parse "AA-bB-00-1D-ee-fF" = .ok m ∧ Spelled Pair "AA-bB-00-1D-ee-fF" m ∧ m.render = "aa:bb:00:1d:ee:ff" ∧
      parse "aa:bb:00:1d:ee:ff" = .ok m ∧ ¬ Spelled Group "AA-bB:00-1D:ee-fF" m := by
  intro m
  obtain ⟨-, plain, written, -, back⟩ := read_iff_spelled "AA-bB-00-1D-ee-fF" m
  have read : parse "AA-bB-00-1D-ee-fF" = .ok m := by decide +kernel
  have spelled := plain.2 ⟨read, by decide⟩
  have text : m.render = "aa:bb:00:1d:ee:ff" := by
    rw [← String.toList_inj, written spelled]
    decide
  refine ⟨read, spelled, text, text ▸ back, fun mixed => ?_⟩
  exact absurd ((read_iff_spelled _ m).1.2 mixed) (by decide +kernel)

/-- A group may be a plus sign and a digit, which is not two digits. -/
theorem plus_sign_read :
    parse "+1:00:00:00:00:00" = .ok (.ofBytes [1]) ∧ ¬ ∃ m, Spelled Pair "+1:00:00:00:00:00" m := by
  refine ⟨by decide +kernel, ?_⟩
  rintro ⟨m, plain⟩
  exact (spelled_pair_iff.1 plain).2 (by decide)

end Mac

end ControlPlane
