/-
Values without quotes, read back: integers and booleans.

The digits of a number are one run of characters (`run_append`), also behind a minus sign.
The run is no date, no time and no number with a fraction, because it has no other mark in
it; so it is an integer, and it spells the number (`read_toString`).
-/
import ControlPlane.Proofs.Text.Digits
import ControlPlane.Toml.Bare

namespace ControlPlane.Toml.Bare

open Text (Stops takeWhile_run dropWhile_run)

variable {cs rest : List Char}

theorem date_eq_none (h : '-' ∉ cs) : date cs = none := by
  rw [date.eq_def]
  split
  · simp at h
  · rfl

theorem date_negative : date ('-' :: cs) = none := by
  rw [date.eq_def]
  split
  · rename_i same
    cases same
    rfl
  · rfl

theorem time_eq_none (h : ':' ∉ cs) : time cs = none := by
  rw [time.eq_def]
  split
  · simp at h
  · rfl

/-- Characters of a run that are no date are taken as they stand. -/
theorem run_append (inside : ∀ c ∈ cs, isRunChar c = true) (noDate : date cs = none) (stops : Stops isRunChar rest) :
    run (cs ++ rest) = (cs, rest) := by
  simp [run, takeWhile_run inside stops, dropWhile_run inside stops, noDate]

/-! ## Digits -/

section Digits

variable (digit : ∀ c ∈ cs, c.isDigit = true)
include digit

theorem not_mem_digits {c : Char} (other : c.isDigit = false) : c ∉ cs := fun h => by
  rw [digit c h] at other
  cases other

theorem isInstant_digits : isInstant cs = false := by
  simp [isInstant, date_eq_none (not_mem_digits digit (by decide)), time_eq_none (not_mem_digits digit (by decide))]

theorem scientific_digits : scientific cs = none := by
  have whole : ∀ c ∈ cs, (!(c == '.' || isExponentMark c)) = true := by
    intro c hc
    have point := not_mem_digits digit (c := '.') (by decide)
    have small := not_mem_digits digit (c := 'e') (by decide)
    have large := not_mem_digits digit (c := 'E') (by decide)
    simp only [isExponentMark, Bool.not_eq_true', Bool.or_eq_false_iff, beq_eq_false_iff_ne]
    exact ⟨fun same => point (same ▸ hc), fun same => small (same ▸ hc), fun same => large (same ▸ hc)⟩
  have all : before (fun c => c == '.' || isExponentMark c) cs = (cs, []) := by
    have front := @takeWhile_run _ cs [] whole (by simp)
    have back := @dropWhile_run _ cs [] whole (by simp)
    rw [List.append_nil] at front back
    rw [before, front, back]
  rw [scientific, all]
  cases h : decimal cs with
  | none => simp [h]
  | some ds => simp [h]

theorem isSpecial_digits : isSpecial cs = false := by
  simp only [isSpecial, Bool.or_eq_false_iff, beq_eq_false_iff_ne]
  constructor
  · rintro rfl
    exact absurd (digit 'i' (by simp)) (by decide)
  · rintro rfl
    exact absurd (digit 'n' (by simp)) (by decide)

theorem isFloat_digits : isFloat cs = false := by
  rw [isFloat.eq_def]
  split
  · exact absurd (digit '-' (by simp)) (by decide)
  · exact absurd (digit '+' (by simp)) (by decide)
  · simp [isSpecial_digits digit, scientific_digits digit]

theorem isInstant_negative : isInstant ('-' :: cs) = false := by
  have noTime : time ('-' :: cs) = none := time_eq_none fun h => by
    rcases List.mem_cons.1 h with same | inside
    · exact absurd same (by decide)
    · exact not_mem_digits digit (by decide) inside
  simp [isInstant, date_negative, noTime]

theorem isFloat_negative : isFloat ('-' :: cs) = false := by
  simp [isFloat, isSpecial_digits digit, scientific_digits digit]

theorem digits_digits (filled : cs ≠ []) : digits Char.isDigit cs = some cs := by
  induction cs with
  | nil => exact absurd rfl filled
  | cons c cs ih =>
    have first := digit c (by simp)
    have others : ∀ c ∈ cs, c.isDigit = true := fun d hd => digit d (by simp [hd])
    cases cs with
    | nil => simp [digits, first]
    | cons d cs =>
      have score : d ≠ '_' := by
        rintro rfl
        exact absurd (others '_' (by simp)) (by decide)
      rw [digits.eq_4 _ _ _ (by simp) (fun _ same => score (List.cons.inj same).1), if_pos first,
        ih others (by simp)]
      rfl

theorem anyInteger_digits : anyInteger cs = (decimal cs).map fun ds => (value 10 ds : Int) := by
  rw [anyInteger.eq_def]
  split
  · exact absurd (digit 'x' (by simp)) (by decide)
  · exact absurd (digit 'o' (by simp)) (by decide)
  · exact absurd (digit 'b' (by simp)) (by decide)
  · exact absurd (digit '-' (by simp)) (by decide)
  · exact absurd (digit '+' (by simp)) (by decide)
  · rfl

end Digits

theorem isRunChar_of_isDigit {c : Char} (h : c.isDigit = true) : isRunChar c = true := by
  simp [isRunChar, Char.isAlphanum, h]

/-! ## Integers -/

theorem isDigit_toDigits (n : Nat) : ∀ c ∈ Nat.toDigits 10 n, c.isDigit = true := fun _ =>
  Nat.isDigit_of_mem_toDigits (by decide) (by decide)

theorem value_toDigits (n : Nat) : value 10 (Nat.toDigits 10 n) = n := Hex.foldl_toDigits (by decide) (by decide) n

theorem decimal_toDigits (n : Nat) : decimal (Nat.toDigits 10 n) = some (Nat.toDigits 10 n) := by
  have all := digits_digits (isDigit_toDigits n) Nat.toDigits_ne_nil
  rw [decimal, all]
  split
  · rename_i c ds padded
    have front := Option.some.inj padded
    have alone : Nat.toDigits 10 n = ['0'] :=
      Hex.not_padded_toDigits (by decide) (by decide) (by rw [front, List.head?_cons])
    rw [alone] at front
    cases front
  · rfl

/-- A number up to the greatest of a document is read back from its digits. -/
theorem read_toDigits {n : Nat} (h : (n : Int) ≤ Value.maxInteger) (stops : Stops isRunChar rest) :
    read (Nat.toDigits 10 n ++ rest) = some (.integer n, rest) := by
  have digit := isDigit_toDigits n
  have noDate := date_eq_none (not_mem_digits digit (c := '-') (by decide))
  have limits : Value.minInteger ≤ (n : Int) ∧ (n : Int) ≤ Value.maxInteger :=
    ⟨by unfold Value.minInteger; omega, h⟩
  have word : ∀ w : List Char, 't' ∈ w ∨ 'f' ∈ w → (Nat.toDigits 10 n == w) = false := by
    intro w letter
    rw [beq_eq_false_iff_ne]
    rintro rfl
    rcases letter with t | f
    · exact absurd (digit _ t) (by decide)
    · exact absurd (digit _ f) (by decide)
  rw [read, run_append (fun c hc => isRunChar_of_isDigit (digit c hc)) noDate stops]
  simp [ofRun, word, isInstant_digits digit, isFloat_digits digit, integer, anyInteger_digits digit, decimal_toDigits,
    value_toDigits, limits]

/-- A negative number down to the least of a document is read back behind its sign. -/
theorem read_negative {n : Nat} (h : Value.minInteger ≤ -(n : Int)) (stops : Stops isRunChar rest) :
    read ('-' :: Nat.toDigits 10 n ++ rest) = some (.integer (-n), rest) := by
  have digit := isDigit_toDigits n
  have inside : ∀ c ∈ '-' :: Nat.toDigits 10 n, isRunChar c = true :=
    List.forall_mem_cons.2 ⟨by decide, fun c hc => isRunChar_of_isDigit (digit c hc)⟩
  have limits : Value.minInteger ≤ -(n : Int) ∧ -(n : Int) ≤ Value.maxInteger :=
    ⟨h, by unfold Value.maxInteger; omega⟩
  rw [read, run_append inside date_negative stops]
  simp [ofRun, isInstant_negative digit, isFloat_negative digit, integer, anyInteger, decimal_toDigits,
    value_toDigits, limits]

/-- An integer within the limits of a document is read back. -/
theorem read_toString {n : Int} (least : Value.minInteger ≤ n) (most : n ≤ Value.maxInteger)
    (stops : Stops isRunChar rest) : read ((toString n).toList ++ rest) = some (.integer n, rest) := by
  cases n with
  | ofNat n =>
    have spelled : (toString (Int.ofNat n)).toList = Nat.toDigits 10 n := Nat.toList_repr
    rw [spelled]
    exact read_toDigits most stops
  | negSucc n =>
    have spelled : (toString (Int.negSucc n)).toList = '-' :: Nat.toDigits 10 (n + 1) := by
      show ("-" ++ (n + 1).repr).toList = _
      rw [String.toList_append, Nat.toList_repr]
      rfl
    rw [spelled]
    exact read_negative least stops

theorem read_true (stops : Stops isRunChar rest) : read ("true".toList ++ rest) = some (.boolean true, rest) := by
  rw [read, run_append (List.all_eq_true.1 rfl) rfl stops]
  rfl

theorem read_false (stops : Stops isRunChar rest) : read ("false".toList ++ rest) = some (.boolean false, rest) := by
  rw [read, run_append (List.all_eq_true.1 rfl) rfl stops]
  rfl

end ControlPlane.Toml.Bare
