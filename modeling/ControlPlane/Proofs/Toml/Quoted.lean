/-
Quoted strings, read back.

`read_write`: a text is read from what it is written as, whatever it contains and
whatever stands behind it, other than a quote. What is written between the quotes is
`Enclosed`: it has no run of quotes that could end the string. It is split off whole, on
one line (`splitLine_enclosed`) and over several (`splitLines_enclosed`), and spells the
text again (`unescape_escapeAll`, `literal_of_stands`).
-/
import ControlPlane.Toml.Quoted
import ControlPlane.Proofs.Text.Digits

namespace ControlPlane.Toml.Quoted

variable {q : Char} {escapes multiline : Bool} {room left : Nat} {inside rest cs : List Char}

/-! ## Finding the end -/

/-- What can stand between quotes of a kind: at most `room` quotes in a row, and at most
`left` at the front. With escapes, a backslash takes the next character with it. -/
inductive Enclosed (q : Char) (escapes : Bool) (room : Nat) : (left : Nat) → List Char → Prop where
  | nil {left : Nat} : Enclosed q escapes room left []
  | quote {left : Nat} {inside : List Char} (h : Enclosed q escapes room left inside) :
      Enclosed q escapes room (left + 1) (q :: inside)
  | char {left : Nat} {c : Char} {inside : List Char} (other : c ≠ q) (plain : escapes = true → c ≠ '\\')
      (h : Enclosed q escapes room room inside) : Enclosed q escapes room left (c :: inside)
  | pair {left : Nat} {c : Char} {inside : List Char} (active : escapes = true)
      (h : Enclosed q escapes room room inside) : Enclosed q escapes room left ('\\' :: c :: inside)

/-- Characters that mean nothing special change nothing. -/
theorem Enclosed.run {run : List Char} (plain : ∀ c ∈ run, c ≠ q ∧ c ≠ '\\') (h : Enclosed q escapes room room inside) :
    Enclosed q escapes room room (run ++ inside) := by
  induction run with
  | nil => exact h
  | cons c run ih =>
    have first := plain c (by simp)
    exact .char first.1 (fun _ => first.2) (ih fun d hd => plain d (by simp [hd]))

/-- An enclosed text begins with a few quotes, and then ends or goes on with another character. -/
theorem Enclosed.front (notEscape : q ≠ '\\') (h : Enclosed q escapes room left inside) : ∃ k ≤ left,
    inside = List.replicate k q ∨ ∃ c s, c ≠ q ∧ inside = List.replicate k q ++ c :: s := by
  induction h with
  | nil => exact ⟨0, Nat.zero_le _, .inl rfl⟩
  | quote _ ih =>
    obtain ⟨k, hk, all | ⟨c, s, other, some⟩⟩ := ih
    · exact ⟨k + 1, by omega, .inl (by rw [all, List.replicate_succ])⟩
    · exact ⟨k + 1, by omega, .inr ⟨c, s, other, by rw [some, List.replicate_succ, List.cons_append]⟩⟩
  | @char _ c inside other => exact ⟨0, Nat.zero_le _, .inr ⟨c, inside, other, rfl⟩⟩
  | @pair _ c inside => exact ⟨0, Nat.zero_le _, .inr ⟨'\\', c :: inside, notEscape.symm, rfl⟩⟩

theorem unescaped_of_plain {c : Char} (plain : escapes = true → c ≠ '\\') : (escapes && c == '\\') = false := by
  cases escapes with
  | false => rfl
  | true => simpa using plain rfl

theorem splitLine_char {c : Char} (other : c ≠ q) (plain : escapes = true → c ≠ '\\') {s : List Char}
    (more : s ≠ []) : splitLine q escapes (c :: s) = (splitLine q escapes s).map fun (t, r) => (c :: t, r) := by
  obtain ⟨d, s, rfl⟩ := List.exists_cons_of_ne_nil more
  simp [splitLine, other, unescaped_of_plain plain]

/-- An enclosed text on one line is what stands before the quote. -/
theorem splitLine_enclosed (notEscape : q ≠ '\\') (h : Enclosed q escapes 0 left inside) (none : left = 0)
    (rest : List Char) :
    splitLine q escapes (inside ++ q :: rest) = some (inside, rest) := by
  induction h with
  | nil => cases rest <;> simp [splitLine]
  | quote => cases none
  | char other plain _ ih =>
    rw [List.cons_append, splitLine_char other plain (by simp), ih rfl]
    rfl
  | pair active _ ih =>
    subst active
    simp [splitLine, notEscape.symm, ih rfl]

theorem splitLines_char (escapes : Bool) (s : List Char) {a b c : Char} (noEnd : ¬ (a = q ∧ b = q ∧ c = q))
    (plain : escapes = true → a ≠ '\\') :
    splitLines q escapes (a :: b :: c :: s) =
      (splitLines q escapes (b :: c :: s)).map fun (t, r) => (a :: t, r) := by
  have going : (a == q && b == q && c == q) = false := by
    simpa [Bool.and_assoc] using noEnd
  simp [splitLines, going, unescaped_of_plain plain]

/-- Up to two quotes in front of the three that end a string belong to the text. -/
theorem splitLines_end (escapes : Bool) {k : Nat} (few : k ≤ 2) (noQuote : rest.head? ≠ some q) :
    splitLines q escapes (List.replicate k q ++ q :: q :: q :: rest) = some (List.replicate k q, rest) := by
  have last : ∀ d, rest.head? = some d → (d == q) = false := by
    intro d hd
    simpa using fun same : d = q => noQuote (by rw [hd, same])
  interval_cases k
  · cases rest with
    | nil => simp [splitLines]
    | cons d rest => simp [splitLines, last d rfl]
  · cases rest with
    | nil => simp [splitLines]
    | cons d rest => simp [splitLines, last d rfl]
  · simp [splitLines]

/-- An enclosed text over several lines is what stands before the three quotes. -/
theorem splitLines_enclosed (notEscape : q ≠ '\\') (noQuote : rest.head? ≠ some q)
    (h : Enclosed q escapes 2 left inside) (few : left ≤ 2) :
    splitLines q escapes (inside ++ q :: q :: q :: rest) = some (inside, rest) := by
  induction h with
  | nil => exact splitLines_end _ (k := 0) (by omega) noQuote
  | @quote left inside inner ih =>
    -- the string ends here only when the next two characters are quotes as well
    obtain ⟨k, hk, all | ⟨c, s, other, some⟩⟩ := inner.front notEscape
    · have ends := splitLines_end escapes (k := k + 1) (by omega) noQuote
      rwa [List.replicate_succ, ← all] at ends
    · have step : splitLines q escapes (q :: inside ++ q :: q :: q :: rest) =
          (splitLines q escapes (inside ++ q :: q :: q :: rest)).map fun (t, r) => (q :: t, r) := by
        have upTo : k ≤ 1 := by omega
        interval_cases k
        · obtain ⟨d, t, more⟩ := List.exists_cons_of_ne_nil (l := s ++ q :: q :: q :: rest) (by simp)
          simpa [some, more] using splitLines_char escapes t (a := q) (b := c) (c := d)
            (fun all => other all.2.1) (fun _ => notEscape)
        · simpa [some] using splitLines_char escapes (s ++ q :: q :: q :: rest) (a := q) (b := q) (c := c)
            (fun all => other all.2.2) (fun _ => notEscape)
      rw [step, ih (by omega)]
      rfl
  | @char left c inside other plain _ ih =>
    obtain ⟨a, b, s, more⟩ : ∃ a b s, inside ++ q :: q :: q :: rest = a :: b :: s := by
      rcases inside with _ | ⟨a, _ | ⟨b, s⟩⟩ <;> exact ⟨_, _, _, rfl⟩
    have step := splitLines_char escapes s (a := c) (b := a) (c := b) (fun all => other all.1) plain
    rw [← more] at step
    rw [List.cons_append, step, ih (by omega)]
    rfl
  | @pair left c inside active _ ih =>
    obtain ⟨a, s, more⟩ := List.exists_cons_of_ne_nil (l := inside ++ q :: q :: q :: rest) (by simp)
    have behind := ih (by omega)
    rw [more] at behind
    subst active
    simp [splitLines, notEscape.symm, more, behind]

/-! ## Double quotes -/

/-- The four digits of a control character spell it, and are neither quotes nor backslashes. -/
theorem upper_of_isControl {c : Char} (h : isControl c = true) : ∃ w x y z : Char,
    (Hex.upper 4 c.toNat).toList = [w, x, y, z] ∧ numbered [w, x, y, z] = some c ∧
    ∀ d ∈ [w, x, y, z], d ≠ '"' ∧ d ≠ '\\' := by
  have small : c.toNat < 0x80 := by
    simp only [isControl, Bool.or_eq_true, Bool.and_eq_true, decide_eq_true_eq, beq_iff_eq] at h
    omega
  obtain ⟨w, x, y, z, four⟩ : ∃ w x y z, (Hex.upper 4 c.toNat).toList = [w, x, y, z] :=
    ⟨_, _, _, _, by rw [Hex.upper, String.toList_ofList]; rfl⟩
  have value := Hex.value?_upper 4 c.toNat
  have digits : ∀ d ∈ [w, x, y, z], (Hex.digit? d).isSome := fun d hd => Hex.digit?_of_mem_upper (four ▸ hd)
  rw [four, Nat.mod_eq_of_lt (by omega)] at value
  have valid : c.toNat.isValidChar := .inl (by omega)
  refine ⟨w, x, y, z, four, by simp [numbered, value, valid], fun d hd => ⟨?_, ?_⟩⟩
  · rintro rfl
    exact absurd (digits _ hd) (by decide)
  · rintro rfl
    exact absurd (digits _ hd) (by decide)

/-- Every character but controls stands for itself, and so does a line break between triple quotes. -/
theorem isPlain_of_not_isControl {c : Char} (h : isControl c = false) : isPlain c = true ∨ c = '\n' := by
  simp only [isControl, isPlain, Bool.or_eq_false_iff, Bool.and_eq_false_iff, decide_eq_false_iff_not,
    bne_eq_false_iff_eq, beq_eq_false_iff_ne, Bool.or_eq_true, beq_iff_eq, Bool.and_eq_true, decide_eq_true_eq] at h ⊢
  obtain ⟨(low | tab) | newline, del⟩ := h
  · exact .inl (.inr ⟨by omega, by simpa using del⟩)
  · exact .inl (.inl tab)
  · exact .inr newline

/-- A character that stands for itself: between single quotes, and between double quotes if it is no backslash. -/
def Stands (multiline : Bool) (c : Char) : Prop := c ≠ '\r' ∧ (isPlain c = true ∨ multiline = true ∧ c = '\n')

theorem Stands.kept {c : Char} (h : Stands multiline c) : (isPlain c || multiline && c == '\n') = true := by
  rcases h.2 with plain | ⟨several, newline⟩
  · simp [plain]
  · simp [several, newline]

/-- A character is written as an escape of one letter, as an escape of four digits, or as it is. -/
theorem escape_cases (multiline : Bool) (c : Char) :
    (∃ x, escaped x = some c ∧ escape multiline c = ['\\', x]) ∨
    (isControl c = true ∧ escape multiline c = '\\' :: 'u' :: (Hex.upper 4 c.toNat).toList) ∨
    (c ≠ '\\' ∧ Stands multiline c ∧ escape multiline c = [c]) := by
  simp only [escape, beq_iff_eq]
  split_ifs with b t n m f r backslash control
  · exact .inl ⟨'b', by rw [b]; rfl, rfl⟩
  · exact .inl ⟨'t', by rw [t]; rfl, rfl⟩
  · subst n
    exact .inr (.inr ⟨by decide, ⟨by decide, .inr ⟨m, rfl⟩⟩, rfl⟩)
  · exact .inl ⟨'n', by rw [n]; rfl, rfl⟩
  · exact .inl ⟨'f', by rw [f]; rfl, rfl⟩
  · exact .inl ⟨'r', by rw [r]; rfl, rfl⟩
  · exact .inl ⟨'\\', by rw [backslash]; rfl, rfl⟩
  · exact .inr (.inl ⟨control, rfl⟩)
  · have plain := (isPlain_of_not_isControl (by simpa using control)).resolve_right n
    exact .inr (.inr ⟨backslash, ⟨r, .inl plain⟩, rfl⟩)

theorem enclosed_escape {c : Char} (other : c ≠ '"') (h : Enclosed '"' true room room inside) :
    Enclosed '"' true room left (escape multiline c ++ inside) := by
  obtain ⟨x, -, written⟩ | ⟨control, written⟩ | ⟨backslash, -, written⟩ := escape_cases multiline c
  · rw [written]
    exact .pair rfl h
  · obtain ⟨w, x, y, z, four, -, plain⟩ := upper_of_isControl control
    rw [written, four]
    exact .pair rfl (.run plain h)
  · rw [written]
    exact .char other (fun _ => backslash) h

theorem escapeAll_quote (cs : List Char) : escapeAll multiline room (left + 1) ('"' :: cs) =
    '"' :: escapeAll multiline room left cs := by
  simp [escapeAll]

theorem escapeAll_quote_full (cs : List Char) : escapeAll multiline room 0 ('"' :: cs) =
    '\\' :: '"' :: escapeAll multiline room room cs := by
  simp [escapeAll]

theorem escapeAll_char {c : Char} (other : c ≠ '"') (cs : List Char) :
    escapeAll multiline room left (c :: cs) = escape multiline c ++ escapeAll multiline room room cs := by
  rw [escapeAll.eq_def]
  simp [other]

theorem enclosed_escapeAll (room left : Nat) (cs : List Char) :
    Enclosed '"' true room left (escapeAll multiline room left cs) := by
  induction cs generalizing left with
  | nil => exact .nil
  | cons c cs ih =>
    by_cases quote : c = '"'
    · subst quote
      cases left with
      | zero =>
        rw [escapeAll_quote_full]
        exact .pair rfl (ih room)
      | succ left =>
        rw [escapeAll_quote]
        exact .quote (ih left)
    · rw [escapeAll_char quote]
      exact enclosed_escape quote (ih room)

theorem unescape_pair {x c : Char} (h : escaped x = some c) (s : List Char) :
    unescape multiline false ('\\' :: x :: s) = (unescape multiline false s).map (c :: ·) := by
  have notLong : x ≠ 'u' ∧ x ≠ 'U' := by
    constructor <;> rintro rfl <;> simp [escaped] at h
  rw [unescape.eq_4 _ _ _ _ (fun _ _ _ _ _ same _ => notLong.1 same)
    (fun _ _ _ _ _ _ _ _ _ same _ => notLong.2 same), h]

theorem unescape_stands {c : Char} (backslash : c ≠ '\\') (stands : Stands multiline c) (s : List Char) :
    unescape multiline false (c :: s) = (unescape multiline false s).map (c :: ·) := by
  have kept : (multiline && c == '\n' || isPlain c && c != '\\') = true := by
    simpa [backslash, or_comm] using stands.kept
  rw [unescape.eq_6 _ _ _ _ (fun _ _ _ _ _ same _ => backslash same) (fun _ _ _ _ _ _ _ _ _ same _ => backslash same)
    (fun _ _ same _ => backslash same) (fun _ same _ => stands.1 same)]
  simp [kept]

theorem unescape_escape (c : Char) (s : List Char) :
    unescape multiline false (escape multiline c ++ s) = (unescape multiline false s).map (c :: ·) := by
  obtain ⟨x, spelled, written⟩ | ⟨control, written⟩ | ⟨backslash, stands, written⟩ := escape_cases multiline c
  · rw [written]
    exact unescape_pair spelled s
  · obtain ⟨w, x, y, z, four, value, -⟩ := upper_of_isControl control
    rw [written, four]
    simp [unescape, value, Option.map_eq_bind]
  · rw [written]
    exact unescape_stands backslash stands s

/-- What is written between double quotes spells the text. -/
theorem unescape_escapeAll (room left : Nat) (cs : List Char) :
    unescape multiline false (escapeAll multiline room left cs) = some cs := by
  induction cs generalizing left with
  | nil => simp [escapeAll, unescape]
  | cons c cs ih =>
    by_cases quote : c = '"'
    · subst quote
      cases left with
      | zero => simp [escapeAll_quote_full, unescape, escaped, ih]
      | succ left =>
        rw [escapeAll_quote, unescape_stands (by decide) ⟨by decide, .inl (by decide)⟩, ih]
        rfl
    · rw [escapeAll_char quote, unescape_escape, ih]
      rfl

/-! ## Single quotes -/

theorem literal_stands {c : Char} (stands : Stands multiline c) (s : List Char) :
    literal multiline (c :: s) = (literal multiline s).map (c :: ·) := by
  rw [literal.eq_3 _ _ _ (fun _ same _ => stands.1 same), if_pos stands.kept]

/-- A text of characters that stand for themselves spells itself. -/
theorem literal_of_stands (h : ∀ c ∈ cs, Stands multiline c) : literal multiline cs = some cs := by
  induction cs with
  | nil => rfl
  | cons c cs ih =>
    rw [literal_stands (h c (by simp)), ih fun d hd => h d (by simp [hd])]
    rfl

/-- One character counted: the quotes in a row up to it, and the most so far. -/
def count (q : Char) (n : Nat × Nat) (c : Char) : Nat × Nat :=
  if c == q then (n.1 + 1, max n.2 (n.1 + 1)) else (0, n.2)

theorem le_foldl_count (q : Char) (cs : List Char) (n : Nat × Nat) : n.2 ≤ (cs.foldl (count q) n).2 := by
  induction cs generalizing n with
  | nil => exact Nat.le_refl _
  | cons c cs ih =>
    refine Nat.le_trans ?_ (ih (count q n c))
    unfold count
    split
    · exact Nat.le_max_left _ _
    · exact Nat.le_refl _

theorem enclosed_of_foldl_count {n : Nat × Nat} (h : (cs.foldl (count q) n).2 ≤ room) :
    Enclosed q false room (room - n.1) cs := by
  induction cs generalizing n with
  | nil => exact .nil
  | cons c cs ih =>
    have behind := ih h
    by_cases quote : c = q
    · subst quote
      -- the most so far never falls, so the quotes in a row up to here are within the room
      have counted := Nat.le_trans (le_foldl_count c cs (count c n c)) h
      simp only [count, beq_self_eq_true, if_true] at behind counted
      have place : room - n.1 = room - (n.1 + 1) + 1 := by omega
      rw [place]
      exact .quote behind
    · simp only [count, beq_eq_false_iff_ne.2 quote, Bool.false_eq_true, if_false, Nat.sub_zero] at behind
      exact .char quote (by simp) behind

/-- A text without too many quotes in a row can stand between them. -/
theorem enclosed_of_longestRun (h : longestRun q cs ≤ room) : Enclosed q false room room cs :=
  enclosed_of_foldl_count (n := (0, 0)) h

/-! ## Forms -/

/-- Quotes that a form allows in a row. -/
def Form.most (f : Form) : Nat := if f.multiline then 2 else 0

/-- What stands between the quotes, but for the break in front of a text of several lines. -/
def Form.inner (f : Form) (cs : List Char) : List Char :=
  if f.quote == '"' then escapeAll f.multiline f.most f.most cs else cs

/-- A form that a text can be written in: any with double quotes, which has escapes, and one with single quotes that
holds the text as it stands. -/
def Form.Suits (f : Form) (cs : List Char) : Prop := f.quote = '"' ∨ f.quote = '\'' ∧ f.holds cs = true

variable {f : Form}

theorem Form.stands_of_holds (h : f.holds cs = true) : ∀ c ∈ cs, Stands f.multiline c := by
  simp only [Form.holds, Bool.and_eq_true, Bool.not_eq_true', List.any_eq_false, Bool.or_eq_true] at h
  obtain ⟨⟨⟨controls, lines⟩, -⟩, -⟩ := h
  intro c hc
  have control : isControl c = false := by simpa using controls c hc
  refine ⟨?_, (isPlain_of_not_isControl control).imp id fun newline => ⟨?_, newline⟩⟩
  · rintro rfl
    simp [isControl] at control
  · rcases lines with several | single
    · exact several
    · exact absurd (newline ▸ hc) (by simpa using single)

theorem Form.enclosed_inner (h : f.Suits cs) : Enclosed f.quote (f.quote == '"') f.most f.most (f.inner cs) := by
  obtain double | ⟨single, holds⟩ := h
  · rw [Form.inner, double]
    exact enclosed_escapeAll f.most f.most cs
  · simp only [Form.holds, Bool.and_eq_true, decide_eq_true_eq] at holds
    have enclosed := enclosed_of_longestRun holds.1.2
    simpa [Form.inner, Form.most, single] using enclosed

/-- What stands between the quotes spells the text. -/
theorem Form.body_inner (h : f.Suits cs) : body f.quote f.multiline (f.inner cs) = some cs := by
  obtain double | ⟨single, holds⟩ := h
  · simp [body, Form.inner, double, unescape_escapeAll]
  · simp [body, Form.inner, single, literal_of_stands (Form.stands_of_holds holds)]

theorem read_line (quote : q = '"' ∨ q = '\'') {s : List Char} (single : ∀ t, s ≠ q :: q :: t) :
    read (q :: s) = readLine q s := by
  rcases quote with rfl | rfl
  · exact read.eq_3 s fun t same => single t same
  · exact read.eq_4 s fun t same => single t same

theorem read_lines (quote : q = '"' ∨ q = '\'') (s : List Char) : read (q :: q :: q :: s) = readLines q s := by
  rcases quote with rfl | rfl <;> rfl

theorem Form.quote_of_suits (h : f.Suits cs) : f.quote = '"' ∨ f.quote = '\'' := h.imp id And.left

theorem Form.quote_ne (h : f.Suits cs) {c : Char} (other : '"' ≠ c ∧ '\'' ≠ c) : f.quote ≠ c := by
  rcases Form.quote_of_suits h with double | single
  · exact double ▸ other.1
  · exact single ▸ other.2

/-- A text on one line is read back. -/
theorem Form.read_write_line (h : f.Suits cs) (line : f.multiline = false) (noQuote : rest.head? ≠ some f.quote) :
    read (f.write cs ++ rest) = some (String.ofList cs, rest) := by
  have enclosed := Form.enclosed_inner h
  have written : f.write cs ++ rest = f.quote :: (f.inner cs ++ f.quote :: rest) := by
    simp [Form.write, Form.mark, Form.inner, Form.most, line]
  have single : ∀ t, f.inner cs ++ f.quote :: rest ≠ f.quote :: f.quote :: t := by
    intro t same
    obtain ⟨k, few, empty | ⟨c, s, other, some⟩⟩ := enclosed.front (Form.quote_ne h (by decide)) <;>
      obtain rfl : k = 0 := by simpa [Form.most, line] using few
    · rw [empty] at same
      exact noQuote (by simp [(List.cons.inj same).2])
    · rw [some] at same
      exact other (List.cons.inj same).1
  rw [written, read_line (Form.quote_of_suits h) single]
  simp only [Form.most, line] at enclosed
  have split := splitLine_enclosed (Form.quote_ne h (by decide)) enclosed rfl rest
  have spelled := Form.body_inner h
  rw [line] at spelled
  simp [readLine, split, spelled]

theorem afterBreak_eq_none {s : List Char} (h : ∀ c, s.head? = some c → c ≠ '\n' ∧ c ≠ '\r') : afterBreak s = none := by
  cases s with
  | nil => rfl
  | cons c s =>
    obtain ⟨newline, cr⟩ := h c rfl
    exact afterBreak.eq_3 _ (fun _ same => newline (List.cons.inj same).1) (fun _ same => cr (List.cons.inj same).1)

theorem escapeAll_front {c : Char} (h : (escapeAll multiline room left cs).head? = some c) (newline : '\n' ∉ cs) :
    c ≠ '\n' ∧ c ≠ '\r' := by
  cases cs with
  | nil => simp [escapeAll] at h
  | cons d cs =>
    by_cases quote : d = '"'
    · subst quote
      cases left with
      | zero =>
        rw [escapeAll_quote_full] at h
        cases h
        decide
      | succ left =>
        rw [escapeAll_quote] at h
        cases h
        decide
    · rw [escapeAll_char quote] at h
      obtain ⟨x, -, written⟩ | ⟨-, written⟩ | ⟨-, stands, written⟩ := escape_cases multiline d <;>
        rw [written] at h <;> cases h
      · decide
      · decide
      · exact ⟨fun same => newline (by simp [same]), stands.1⟩

/-- No line break is in front of a text of one line. -/
theorem Form.afterBreak_inner (h : f.Suits cs) (newline : '\n' ∉ cs) (s : List Char) :
    afterBreak (f.inner cs ++ f.quote :: s) = none := by
  refine afterBreak_eq_none fun c front => ?_
  rw [List.head?_append, Option.or_eq_some_iff] at front
  rcases front with front | ⟨-, mark⟩
  · rcases h with double | ⟨single, holds⟩
    · rw [Form.inner, double] at front
      exact escapeAll_front front newline
    · have listed : c ∈ cs := by simpa [Form.inner, single] using List.mem_of_head? front
      exact ⟨fun same => newline (same ▸ listed), (Form.stands_of_holds holds c listed).1⟩
  · cases mark
    exact ⟨Form.quote_ne h (by decide), Form.quote_ne h (by decide)⟩

/-- A text over several lines is read back. -/
theorem Form.read_write_lines (h : f.Suits cs) (lines : f.multiline = true) (noQuote : rest.head? ≠ some f.quote) :
    read (f.write cs ++ rest) = some (String.ofList cs, rest) := by
  have enclosed := Form.enclosed_inner h
  simp only [Form.most, lines] at enclosed
  have split := splitLines_enclosed (Form.quote_ne h (by decide)) noQuote enclosed (Nat.le_refl _)
  have spelled := Form.body_inner h
  rw [lines] at spelled
  by_cases newline : '\n' ∈ cs
  · have written : f.write cs ++ rest = f.quote :: f.quote :: f.quote ::
        '\n' :: (f.inner cs ++ f.quote :: f.quote :: f.quote :: rest) := by
      simp [Form.write, Form.mark, Form.inner, Form.most, lines, newline]
    rw [written, read_lines (Form.quote_of_suits h)]
    simp [readLines, afterBreak, split, spelled]
  · have written : f.write cs ++ rest = f.quote :: f.quote :: f.quote ::
        (f.inner cs ++ f.quote :: f.quote :: f.quote :: rest) := by
      simp [Form.write, Form.mark, Form.inner, Form.most, lines, newline]
    rw [written, read_lines (Form.quote_of_suits h)]
    simp [readLines, Form.afterBreak_inner h newline, split, spelled]

theorem suits_formOf (cs : List Char) : (formOf cs).Suits cs := by
  rw [formOf]
  cases found : forms.find? (·.holds cs) with
  | none => exact .inl rfl
  | some f =>
    have holds : f.holds cs = true := by simpa using List.find?_some found
    have listed := List.mem_of_find?_eq_some found
    simp only [forms, List.mem_cons, List.not_mem_nil, or_false] at listed
    rcases listed with rfl | rfl | rfl | rfl
    · exact .inl rfl
    · exact .inr ⟨rfl, holds⟩
    · exact .inl rfl
    · exact .inr ⟨rfl, holds⟩

theorem exists_front_write (s : String) : ∃ q cs, (q = '"' ∨ q = '\'') ∧ (write s).toList = q :: cs := by
  have quote := Form.quote_of_suits (suits_formOf s.toList)
  cases lines : (formOf s.toList).multiline with
  | false => exact ⟨_, _, quote, by simp [write, Form.write, Form.mark, lines]; rfl⟩
  | true => exact ⟨_, _, quote, by simp [write, Form.write, Form.mark, lines, List.replicate_succ]; rfl⟩

/-- A text is read back from what it is written as, if no quote stands behind it. -/
theorem read_write (s : String) (rest : List Char) (noQuote : ∀ q, rest.head? = some q → q ≠ '"' ∧ q ≠ '\'') :
    read ((write s).toList ++ rest) = some (s, rest) := by
  have suits := suits_formOf s.toList
  have behind : rest.head? ≠ some (formOf s.toList).quote := by
    intro same
    rcases Form.quote_of_suits suits with double | single
    · exact (noQuote _ same).1 double
    · exact (noQuote _ same).2 single
  rw [write, String.toList_ofList]
  cases lines : (formOf s.toList).multiline with
  | false => simpa using Form.read_write_line suits lines behind
  | true => simpa using Form.read_write_lines suits lines behind

end ControlPlane.Toml.Quoted
