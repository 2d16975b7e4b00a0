/-
Runs of characters of a kind, and numbers written in digits.

A run ends where a character of another kind stands (`Stops`), and taking and dropping
characters of the kind come apart there. The digits of a number in a radix are such a
run: all are digits of the radix (`isDigit_of_mem_toDigits`), and they spell the number
again (`foldl_toDigits`). A character is a digit in lower or in upper case
(`digit?_eq_some_iff`), and two characters spell an octet as two digits or as one behind
a plus sign (`octet?_pair`, `octet?_signed`).
-/
import ControlPlane.Text.Hex
import Mathlib.Tactic.IntervalCases

namespace ControlPlane

namespace Text

/-- No character of a kind is at the front. -/
def Stops (p : Char → Bool) (rest : List Char) : Prop := ∀ c, rest.head? = some c → p c = false

variable {p q : Char → Bool} {run rest : List Char}

@[simp] theorem stops_nil : Stops p [] := by simp [Stops]

@[simp] theorem stops_cons {c : Char} : Stops p (c :: rest) ↔ p c = false := by simp [Stops]

theorem Stops.mono (h : Stops q rest) (imp : ∀ c, p c = true → q c = true) : Stops p rest := by
  intro c hc
  have none := h c hc
  cases kind : p c with
  | false => rfl
  | true => rw [imp c kind] at none; cases none

theorem takeWhile_run (inside : ∀ c ∈ run, p c = true) (stops : Stops p rest) :
    (run ++ rest).takeWhile p = run := by
  rw [List.takeWhile_append_of_pos inside]
  cases rest with
  | nil => simp
  | cons c rest => simp [stops_cons.1 stops]

theorem dropWhile_run (inside : ∀ c ∈ run, p c = true) (stops : Stops p rest) :
    (run ++ rest).dropWhile p = rest := by
  rw [List.dropWhile_append_of_pos inside]
  cases rest with
  | nil => rfl
  | cons c rest => simp [stops_cons.1 stops]

/-- Characters of a kind are dropped up to one of the run or the first one behind it. -/
theorem head?_dropWhile_append {c : Char} (stops : Stops p rest)
    (h : ((run ++ rest).dropWhile p).head? = some c) : c ∈ run ∨ rest.head? = some c := by
  induction run with
  | nil =>
    have all : rest.dropWhile p = rest := @dropWhile_run p [] rest (by simp) stops
    exact .inr (by simpa [all] using h)
  | cons d run ih =>
    cases kind : p d with
    | false =>
      have first : d = c := by simpa [kind] using h
      exact .inl (by simp [first])
    | true =>
      rcases ih (by simpa [kind] using h) with inside | behind
      · exact .inl (by simp [inside])
      · exact .inr behind

end Text

namespace Hex

/-- A digit of a radix up to sixteen. -/
def isDigit (radix : Nat) (c : Char) : Bool := (digit? c).any (· < radix)

theorem digit?_digitChar {d : Nat} (h : d < 16) : digit? d.digitChar = some d := by
  interval_cases d <;> rfl

variable {radix : Nat}

/-- The digits of a number are those in front of the last one, and the last one. -/
theorem toDigits_of_le {n : Nat} (hr : 1 < radix) (h : radix ≤ n) :
    Nat.toDigits radix n = Nat.toDigits radix (n / radix) ++ [(n % radix).digitChar] := by
  rw [Nat.toDigits_eq_if hr, if_neg (by omega)]

/-- What the digits of a number have in common, when it holds of every digit. -/
theorem forall_mem_toDigits {P : Char → Prop} (hr : 1 < radix) (each : ∀ d < radix, P d.digitChar) (n : Nat) :
    ∀ c ∈ Nat.toDigits radix n, P c := by
  induction n using Nat.strong_induction_on with
  | _ n ih =>
    by_cases h : n < radix
    · simpa [Nat.toDigits_of_lt_base h] using each n h
    · have less : n / radix < n := Nat.div_lt_self (by omega) hr
      rw [toDigits_of_le hr (by omega)]
      intro c hc
      rcases List.mem_append.1 hc with front | last
      · exact ih _ less c front
      · rw [List.mem_singleton.1 last]
        exact each _ (Nat.mod_lt _ (by omega))

theorem isDigit_of_mem_toDigits (hr : 1 < radix) (h16 : radix ≤ 16) (n : Nat) :
    ∀ c ∈ Nat.toDigits radix n, isDigit radix c = true :=
  forall_mem_toDigits hr (fun d h => by simp [isDigit, digit?_digitChar (by omega : d < 16), h]) n

/-- The digits of a number spell it. -/
theorem foldl_toDigits (hr : 1 < radix) (h16 : radix ≤ 16) (n : Nat) :
    (Nat.toDigits radix n).foldl (fun n c => n * radix + (digit? c).getD 0) 0 = n := by
  induction n using Nat.strong_induction_on with
  | _ n ih =>
    by_cases h : n < radix
    · simp [Nat.toDigits_of_lt_base h, digit?_digitChar (by omega : n < 16)]
    · have less : n / radix < n := Nat.div_lt_self (by omega) hr
      have last : n % radix < radix := Nat.mod_lt _ (by omega)
      rw [toDigits_of_le hr (by omega), List.foldl_append, ih _ less]
      simp [digit?_digitChar (by omega : n % radix < 16), Nat.div_add_mod']

/-- Only zero has a zero in front. -/
theorem head?_toDigits (hr : 1 < radix) (h16 : radix ≤ 16) {n : Nat}
    (h : (Nat.toDigits radix n).head? = some '0') : n = 0 := by
  induction n using Nat.strong_induction_on with
  | _ n ih =>
    by_cases small : n < radix
    · rw [Nat.toDigits_of_lt_base small] at h
      have back := digit?_digitChar (by omega : n < 16)
      rw [show n.digitChar = '0' by simpa using h] at back
      simpa [digit?] using back.symm
    · have less : n / radix < n := Nat.div_lt_self (by omega) hr
      rw [toDigits_of_le hr (by omega), List.head?_append, List.head?_eq_some_head Nat.toDigits_ne_nil,
        Option.some_or, ← List.head?_eq_some_head] at h
      have front : n / radix = 0 := ih _ less h
      have pos : 0 < n / radix := Nat.div_pos (by omega) (by omega)
      omega

theorem not_padded_toDigits (hr : 1 < radix) (h16 : radix ≤ 16) {n : Nat}
    (h : (Nat.toDigits radix n).head? = some '0') : Nat.toDigits radix n = ['0'] := by
  rw [head?_toDigits hr h16 h, Nat.toDigits_of_lt_base (by omega)]
  rfl

/-! ## Digits in upper case -/

theorem digit?_upper {d : Nat} (h : d < 16) : digit? d.digitChar.toUpper = some d := by
  interval_cases d <;> rfl

/-- The digits of a number spell it again, reduced to the width they hold. -/
theorem value?_upper (width n : Nat) : value? (upper width n).toList = some (n % 16 ^ width) := by
  induction width generalizing n with
  | zero => simp [upper, digits, value?, Nat.mod_one]
  | succ width ih =>
    have front := ih (n / 16)
    have split : n % 16 ^ (width + 1) = n % 16 + 16 * (n / 16 % 16 ^ width) := by rw [Nat.pow_succ', Nat.mod_mul]
    simp only [upper, value?, digits, String.toList_ofList, List.map_append, List.foldlM_append] at front ⊢
    simp [front, digit?_upper (Nat.mod_lt n (by decide)), split]
    omega

theorem digit?_of_mem_upper {width n : Nat} {c : Char} (h : c ∈ (upper width n).toList) : (digit? c).isSome := by
  induction width generalizing n with
  | zero => simp [upper, digits] at h
  | succ width ih =>
    simp only [upper, digits, String.toList_ofList, List.map_append, List.mem_append] at h ih
    rcases h with front | last
    · exact ih front
    · rw [List.mem_singleton.1 last, digit?_upper (Nat.mod_lt n (by decide))]
      rfl

/-! ## Digits of either case, and octets -/

/-- A digit of a value, in lower or in upper case. -/
structure IsDigitOf (value : Nat) (c : Char) : Prop where
  lt : value < 16
  either : c = value.digitChar ∨ c = value.digitChar.toUpper

theorem isDigitOf_ofNat {n value : Nat} (h : (0x30 ≤ n ∧ n ≤ 0x39) ∧ value = n - 0x30 ∨
    (0x61 ≤ n ∧ n ≤ 0x66) ∧ value = n - 0x61 + 10 ∨ (0x41 ≤ n ∧ n ≤ 0x46) ∧ value = n - 0x41 + 10) :
    IsDigitOf value (Char.ofNat n) := by
  obtain ⟨⟨low, high⟩, rfl⟩ | ⟨⟨low, high⟩, rfl⟩ | ⟨⟨low, high⟩, rfl⟩ := h
  · exact ⟨by omega, .inl (by interval_cases n <;> rfl)⟩
  · exact ⟨by omega, .inl (by interval_cases n <;> rfl)⟩
  · exact ⟨by omega, .inr (by interval_cases n <;> rfl)⟩

theorem digit?_eq_some_iff {c : Char} {value : Nat} : digit? c = some value ↔ IsDigitOf value c := by
  constructor
  · intro read
    rw [← Char.ofNat_toNat c]
    refine isDigitOf_ofNat ?_
    unfold digit? at read
    split at read
    · next range => exact .inl ⟨range, (Option.some.inj read).symm⟩
    split at read
    · next range => exact .inr (.inl ⟨range, (Option.some.inj read).symm⟩)
    split at read
    · next range => exact .inr (.inr ⟨range, (Option.some.inj read).symm⟩)
    · cases read
  · rintro ⟨lt, rfl | rfl⟩
    · exact digit?_digitChar lt
    · exact digit?_upper lt

variable {value : Nat} {a b c : Char}

theorem IsDigitOf.utf8Size (h : IsDigitOf value c) : c.utf8Size = 1 := by
  obtain ⟨lt, rfl | rfl⟩ := h
  · interval_cases value <;> rfl
  · interval_cases value <;> rfl

theorem IsDigitOf.ne_of_none (h : IsDigitOf value c) (none : digit? a = none) : c ≠ a := by
  rintro rfl
  rw [digit?_eq_some_iff.2 h] at none
  cases none

theorem unsigned_cons {cs : List Char} (h : a ≠ '+') : unsigned (a :: cs) = a :: cs := by
  unfold unsigned
  split
  · next same => exact absurd (List.cons.inj same).1 h
  · rfl

theorem value?_single (b : Char) : value? [b] = digit? b := by
  rw [value?, List.foldlM_cons]
  cases digit? b <;> simp

theorem value?_pair (a b : Char) :
    value? [a, b] = (digit? a).bind fun high => (digit? b).map (16 * high + ·) := by
  rw [value?, List.foldlM_cons]
  cases digit? a with
  | none => rfl
  | some high => cases second : digit? b <;> simp [second, Nat.mul_comm]

/-- A character of several octets spells no number. -/
theorem octet?_wide (h : c.utf8Size ≠ 1) : octet? [c] = none := by
  have plus : c ≠ '+' := by
    rintro rfl
    exact h rfl
  have digit : digit? c = none := by
    cases read : digit? c with
    | none => rfl
    | some value => exact absurd (digit?_eq_some_iff.1 read).utf8Size h
  rw [octet?, unsigned_cons plus, value?_single, digit]
  rfl

/-- A number of one digit with a sign in front. -/
theorem octet?_signed (b : Char) : octet? ['+', b] = (digit? b).map UInt8.ofNat := by
  have digit := value?_single b
  rw [octet?]
  simp only [unsigned, List.isEmpty_cons, digit]
  cases read : digit? b with
  | none => rfl
  | some low =>
    have lt := (digit?_eq_some_iff.1 read).lt
    simp [show low < 256 by omega]

/-- A number of two digits. -/
theorem octet?_pair (h : a ≠ '+') :
    octet? [a, b] = (digit? a).bind fun high => (digit? b).map fun low => UInt8.ofNat (16 * high + low) := by
  rw [octet?, unsigned_cons h, value?_pair]
  cases first : digit? a with
  | none => rfl
  | some high =>
    cases second : digit? b with
    | none => rfl
    | some low =>
      have hi := (digit?_eq_some_iff.1 first).lt
      have lo := (digit?_eq_some_iff.1 second).lt
      simp [show 16 * high + low < 256 by omega]

end Hex

end ControlPlane
