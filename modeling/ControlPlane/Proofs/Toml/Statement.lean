/-
Lines of a document, read back.

`ofText_text`: the statements of a text are those that it was written of, when every
statement is plain: about one key that needs no quotes, and with a value that has no
others in it (`Statement.Plain`). A line starts with a bracket or a character of a key
(`front_line`), so it is neither blank nor a comment, and reading takes the lines one
after another (`readAll_line`).
-/
import ControlPlane.Proofs.Toml.Bare
import ControlPlane.Proofs.Toml.Quoted
import ControlPlane.Toml.Statement

namespace ControlPlane.Toml

open Text (Stops takeWhile_run dropWhile_run)

/-- A text, a number within the limits, a boolean, or no values at all. -/
inductive Value.Plain : Value → Prop where
  | string (s : String) : Plain (.string s)
  | integer {n : Int} (least : minInteger ≤ n) (most : n ≤ maxInteger) : Plain (.integer n)
  | boolean (b : Bool) : Plain (.boolean b)
  | empty : Plain (.array [])

namespace Statement

/-- A key that is written without quotes. -/
def IsBare (k : String) : Prop := k.toList ≠ [] ∧ ∀ c ∈ k.toList, isKeyChar c = true

instance (k : String) : Decidable (IsBare k) :=
  decidable_of_iff (k.toList ≠ [] ∧ k.toList.all isKeyChar = true) (by simp [IsBare])

/-- A statement about one key without quotes, and about a plain value. -/
inductive Plain : Statement → Prop where
  | table {k : String} (key : IsBare k) : Plain (.table (.ofKey k))
  | element {k : String} (key : IsBare k) : Plain (.element (.ofKey k))
  | setting {k : String} {v : Value} (key : IsBare k) (value : v.Plain) : Plain (.setting (.ofKey k) v)

variable {k : String} {v : Value} {s : Statement} {cs rest : List Char} {most : Nat}

/-! ## Keys -/

theorem ne_of_isKeyChar {c d : Char} (h : isKeyChar c = true) (other : isKeyChar d = false) : c ≠ d := by
  rintro rfl
  rw [h] at other
  cases other

theorem front_key (key : IsBare k) : ∃ c cs, k.toList = c :: cs ∧ isKeyChar c = true := by
  obtain ⟨c, cs, front⟩ := List.exists_cons_of_ne_nil key.1
  exact ⟨c, cs, front, key.2 c (by simp [front])⟩

/-- No other character than one of the key is in front. -/
theorem append_ne_cons (key : IsBare k) {d : Char} (other : isKeyChar d = false) (rest cs : List Char) :
    k.toList ++ rest ≠ d :: cs := by
  obtain ⟨c, _, front, first⟩ := front_key key
  rw [front]
  exact fun same => ne_of_isKeyChar first other (List.cons.inj same).1

theorem writePath_ofKey (key : IsBare k) : writePath (.ofKey k) = k := by
  have filled : k ≠ "" := by
    rintro rfl
    exact key.1 rfl
  have all : k.toList.all isKeyChar = true := List.all_eq_true.2 key.2
  simp [writePath, Path.ofKey, Path.keys, writeKey, filled, all]

theorem skipBlanks_eq_self (h : ∀ c, cs.head? = some c → Quoted.isBlank c = false) : skipBlanks cs = cs := by
  cases cs with
  | nil => rfl
  | cons c cs => simp [skipBlanks, h c rfl]

theorem readKey_bare (key : IsBare k) (stops : Stops isKeyChar rest) : readKey (k.toList ++ rest) = some (k, rest) := by
  have take := takeWhile_run key.2 stops
  have drop := dropWhile_run key.2 stops
  -- a quote in front would open a quoted key
  rw [readKey.eq_3 _ (append_ne_cons key (by decide) rest) (append_ne_cons key (by decide) rest), take, drop]
  simp [key.1]

/-- A key alone is a path, with the blanks behind it. -/
theorem readPath_bare (key : IsBare k) (stops : Stops isKeyChar rest) (blanks : skipBlanks rest = cs)
    (noDot : cs.head? ≠ some '.') : readPath maxDepth (k.toList ++ rest) = some (.ofKey k, cs) := by
  obtain ⟨c, _, front, first⟩ := front_key key
  have noBlank : skipBlanks (k.toList ++ rest) = k.toList ++ rest := by
    refine skipBlanks_eq_self fun d hd => ?_
    cases show c = d by simpa [front] using hd
    simp [Quoted.isBlank, ne_of_isKeyChar first (d := ' ') (by decide), ne_of_isKeyChar first (d := '\t') (by decide)]
  rw [maxDepth, readPath, noBlank, readKey_bare key stops]
  simp only [bind, Option.bind, blanks]
  split
  · exact absurd rfl noDot
  · rfl

/-! ## Values -/

/-- A value without quotes and brackets in front is bare. -/
theorem readValue_bare {c : Char} (depth : Nat) (cs : List Char)
    (other : c ≠ '[' ∧ c ≠ '\x7b' ∧ c ≠ '"' ∧ c ≠ '\'') : readValue depth (c :: cs) = Bare.read (c :: cs) := by
  cases depth with
  | zero => simp [readValue, other]
  | succ depth => simp [readValue, other]

theorem readValue_quoted {q : Char} (depth : Nat) (cs : List Char) (quote : q = '"' ∨ q = '\'') :
    readValue depth (q :: cs) = (Quoted.read (q :: cs)).map fun (s, rest) => (.string s, rest) := by
  rcases quote with rfl | rfl <;> cases depth <;> rfl

/-- An integer starts with a digit or a minus sign. -/
theorem front_integer (n : Int) : ∃ c cs, (toString n).toList = c :: cs ∧ (c.isDigit = true ∨ c = '-') := by
  cases n with
  | ofNat n =>
    obtain ⟨c, cs, front⟩ := List.exists_cons_of_ne_nil (Nat.toDigits_ne_nil (n := n) (b := 10))
    refine ⟨c, cs, Nat.toList_repr.trans front, .inl ?_⟩
    exact Bare.isDigit_toDigits n c (by simp [front])
  | negSucc n => exact ⟨'-', _, String.toList_append, .inr rfl⟩

/-- No blank is in front of a value. -/
theorem skipBlanks_writeValue (plain : v.Plain) :
    skipBlanks ((writeValue v).toList ++ rest) = (writeValue v).toList ++ rest := by
  refine skipBlanks_eq_self fun d hd => ?_
  cases plain with
  | string s =>
    obtain ⟨q, cs, quote, front⟩ := Quoted.exists_front_write s
    cases show q = d by simpa [writeValue, front] using hd
    rcases quote with rfl | rfl <;> decide
  | @integer n least most =>
    obtain ⟨c, cs, front, first⟩ := front_integer n
    rw [writeValue, front] at hd
    cases hd
    simp only [Quoted.isBlank, Bool.or_eq_false_iff, beq_eq_false_iff_ne]
    constructor <;> rintro rfl <;> exact absurd first (by decide)
  | boolean b =>
    cases b
    all_goals
      cases hd
      decide
  | empty =>
    cases hd
    decide

/-- A plain value is read from what it is written as, up to the end of the line. -/
theorem readValue_plain (plain : v.Plain) (depth : Nat) :
    readValue (depth + 1) ((writeValue v).toList ++ '\n' :: rest) = some (v, '\n' :: rest) := by
  have stops : Stops Bare.isRunChar ('\n' :: rest) := by simp [Bare.isRunChar]
  cases plain with
  | string s =>
    have read := Quoted.read_write s ('\n' :: rest) (by simp)
    obtain ⟨q, cs, quote, front⟩ := Quoted.exists_front_write s
    rw [front, List.cons_append] at read
    rw [writeValue, front, List.cons_append, readValue_quoted _ _ quote, read]
    rfl
  | @integer n least most =>
    have read := Bare.read_toString least most stops
    obtain ⟨c, cs, front, first⟩ := front_integer n
    rw [front] at read
    rw [writeValue, front, List.cons_append, readValue_bare]
    · exact read
    · refine ⟨?_, ?_, ?_, ?_⟩ <;> rintro rfl <;> exact absurd first (by decide)
  | boolean b =>
    cases b with
    | true => exact (readValue_bare _ _ (by decide)).trans (Bare.read_true stops)
    | false => exact (readValue_bare _ _ (by decide)).trans (Bare.read_false stops)
  | empty => simp [writeValue, writeItems, readValue, readItems, skipLines, Quoted.isBlank]

/-! ## Lines -/

theorem endLine_break (rest : List Char) : endLine ('\n' :: rest) = some rest := by
  simp [endLine, skipBlanks, Quoted.isBlank, Quoted.afterBreak]

theorem toList_line_table (key : IsBare k) :
    (line (.table (.ofKey k))).toList = '[' :: (k.toList ++ [']', '\n']) := by
  simp [line, writePath_ofKey key]

theorem toList_line_element (key : IsBare k) :
    (line (.element (.ofKey k))).toList = '[' :: '[' :: (k.toList ++ [']', ']', '\n']) := by
  simp [line, writePath_ofKey key]

theorem toList_line_setting (key : IsBare k) (v : Value) : (line (.setting (.ofKey k) v)).toList =
    k.toList ++ ' ' :: '=' :: ' ' :: ((writeValue v).toList ++ ['\n']) := by
  simp [line, writePath_ofKey key]

/-- A line starts with a bracket or a character of a key. -/
theorem front_line (plain : s.Plain) : ∃ c cs, s.line.toList = c :: cs ∧ (c = '[' ∨ isKeyChar c = true) := by
  cases plain with
  | table key => exact ⟨_, _, toList_line_table key, .inl rfl⟩
  | element key => exact ⟨_, _, toList_line_element key, .inl rfl⟩
  | setting key =>
    obtain ⟨c, cs, front, first⟩ := front_key key
    exact ⟨c, _, by rw [toList_line_setting key, front, List.cons_append], .inr first⟩

theorem read_table (key : IsBare k) (rest : List Char) :
    read ((line (.table (.ofKey k))).toList ++ rest) = some (.table (.ofKey k), rest) := by
  have path : readPath maxDepth (k.toList ++ ']' :: '\n' :: rest) = some (.ofKey k, ']' :: '\n' :: rest) :=
    readPath_bare key (by simp; decide) rfl (by simp)
  rw [toList_line_table key]
  simp only [List.cons_append, List.append_assoc, List.nil_append]
  -- a second bracket would be that of an element
  rw [read.eq_2 _ (append_ne_cons key (by decide) _), path]
  simp [expect, endLine_break]

theorem read_element (key : IsBare k) (rest : List Char) :
    read ((line (.element (.ofKey k))).toList ++ rest) = some (.element (.ofKey k), rest) := by
  have path : readPath maxDepth (k.toList ++ ']' :: ']' :: '\n' :: rest) =
      some (.ofKey k, ']' :: ']' :: '\n' :: rest) :=
    readPath_bare key (by simp; decide) rfl (by simp)
  rw [toList_line_element key]
  simp only [List.cons_append, List.append_assoc, List.nil_append]
  rw [read, path]
  simp [expect, endLine_break]

theorem read_setting (key : IsBare k) (value : v.Plain) (rest : List Char) :
    read ((line (.setting (.ofKey k) v)).toList ++ rest) = some (.setting (.ofKey k) v, rest) := by
  let behind := (writeValue v).toList ++ '\n' :: rest
  have path : readPath maxDepth (k.toList ++ ' ' :: '=' :: ' ' :: behind) =
      some (.ofKey k, '=' :: ' ' :: behind) :=
    readPath_bare key (by simp; decide) rfl (by simp)
  have blank : skipBlanks (' ' :: behind) = behind := skipBlanks_writeValue value
  have spelled : readValue 79 behind = some (v, '\n' :: rest) := readValue_plain value 78
  have noBracket := append_ne_cons key (d := '[') (by decide) (' ' :: '=' :: ' ' :: behind)
  rw [toList_line_setting key]
  simp only [List.cons_append, List.append_assoc, List.nil_append]
  rw [read.eq_3 _ (fun s => noBracket ('[' :: s)) noBracket, path]
  simp [expect, blank, behind, maxDepth, spelled, endLine_break]

/-- A statement is read from its line, with whatever stands behind it. -/
theorem read_line (plain : s.Plain) (rest : List Char) : read (s.line.toList ++ rest) = some (s, rest) := by
  cases plain with
  | table key => exact read_table key rest
  | element key => exact read_element key rest
  | setting key value => exact read_setting key value rest

/-! ## Documents -/

/-- No line is blank or a comment. -/
theorem endLine_line (plain : s.Plain) (rest : List Char) :
    skipBlanks (s.line.toList ++ rest) = s.line.toList ++ rest ∧ endLine (s.line.toList ++ rest) = none := by
  obtain ⟨c, cs, front, first⟩ := front_line plain
  have other : ∀ d, isKeyChar d = false → d ≠ '[' → c ≠ d := by
    intro d key bracket
    rcases first with rfl | first
    · exact bracket.symm
    · exact ne_of_isKeyChar first key
  have blank : skipBlanks (c :: (cs ++ rest)) = c :: (cs ++ rest) := by
    refine skipBlanks_eq_self fun d hd => ?_
    cases show c = d by simpa using hd
    simp [Quoted.isBlank, other ' ' (by decide) (by decide), other '\t' (by decide) (by decide)]
  have noBreak : Quoted.afterBreak (c :: (cs ++ rest)) = none :=
    Quoted.afterBreak_eq_none fun d hd => by
      cases show c = d by simpa using hd
      exact ⟨other '\n' (by decide) (by decide), other '\r' (by decide) (by decide)⟩
  rw [front, List.cons_append]
  refine ⟨blank, ?_⟩
  simp [endLine, blank, noBreak, other '#' (by decide) (by decide)]

theorem readAll_line (plain : s.Plain) (most : Nat) (rest : List Char) :
    readAll (most + 1) (s.line.toList ++ rest) = (readAll most rest).map (s :: ·) := by
  obtain ⟨blank, none⟩ := endLine_line plain rest
  obtain ⟨c, cs, front, -⟩ := front_line plain
  have filled : (s.line.toList ++ rest).isEmpty = false := by simp [front]
  rw [readAll]
  simp only [blank, filled, none, read_line plain, Bool.false_eq_true, if_false]
  cases behind : readAll most rest <;> simp [behind]

theorem readAll_break (most : Nat) (rest : List Char) : readAll (most + 1) ('\n' :: rest) = readAll most rest := by
  have blank : skipBlanks ('\n' :: rest) = '\n' :: rest := rfl
  rw [readAll]
  simp [blank, endLine_break]

/-- Statements behind others: a header has a blank line in front. -/
def following (ss : List Statement) : List Char :=
  ss.flatMap fun s => if s.isHeader then '\n' :: s.line.toList else s.line.toList

theorem toList_text (s : Statement) (ss : List Statement) :
    (text (s :: ss)).toList = s.line.toList ++ following ss := by
  simp only [text, String.toList_append, String.toList_join, List.flatMap_map, following]
  congr 2
  funext s
  split <;> simp

theorem length_line_pos (plain : s.Plain) : 0 < s.line.toList.length := by
  obtain ⟨c, cs, front, -⟩ := front_line plain
  simp [front]

theorem readAll_following {ss : List Statement} (plain : ∀ s ∈ ss, s.Plain) (enough : (following ss).length < most) :
    readAll most (following ss) = some ss := by
  induction ss generalizing most with
  | nil =>
    obtain ⟨most, rfl⟩ : ∃ m, most = m + 1 := ⟨most - 1, by omega⟩
    simp [following, readAll, skipBlanks]
  | cons s ss ih =>
    have first := plain s (by simp)
    have others : ∀ s ∈ ss, s.Plain := fun t ht => plain t (by simp [ht])
    have size := length_line_pos first
    by_cases header : s.isHeader = true
    · have lines : following (s :: ss) = '\n' :: (s.line.toList ++ following ss) := by simp [following, header]
      rw [lines] at enough ⊢
      simp only [List.length_cons, List.length_append] at enough
      obtain ⟨most, rfl⟩ : ∃ m, most = m + 2 := ⟨most - 2, by omega⟩
      rw [readAll_break, readAll_line first, ih others (by omega)]
      rfl
    · have lines : following (s :: ss) = s.line.toList ++ following ss := by simp [following, header]
      rw [lines] at enough ⊢
      simp only [List.length_append] at enough
      obtain ⟨most, rfl⟩ : ∃ m, most = m + 1 := ⟨most - 1, by omega⟩
      rw [readAll_line first, ih others (by omega)]
      rfl

/-- The statements of a text are those that it was written of. -/
theorem ofText_text {ss : List Statement} (plain : ∀ s ∈ ss, s.Plain) : ofText (text ss) = some ss := by
  cases ss with
  | nil => rfl
  | cons s ss =>
    have first := plain s (by simp)
    obtain ⟨c, cs, front, start⟩ := front_line first
    have noMark : c ≠ '\ufeff' := by
      rintro rfl
      rcases start with bracket | key
      · exact absurd bracket (by decide)
      · exact absurd key (by decide)
    have size := length_line_pos first
    have skipped : ofText (text (s :: ss)) = readAll ((text (s :: ss)).toList.length + 1) (text (s :: ss)).toList := by
      rw [ofText, toList_text, front, List.cons_append]
      split
      · rename_i mark
        exact absurd (List.cons.inj mark).1 noMark
      · rfl
    rw [skipped, toList_text, readAll_line first,
      readAll_following (fun t ht => plain t (by simp [ht])) (by simp only [List.length_append]; omega)]
    rfl

end Statement

end ControlPlane.Toml
