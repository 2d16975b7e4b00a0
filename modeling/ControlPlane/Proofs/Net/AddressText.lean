/-
Addresses as text, read back.

`ofText?_render`: the canonical text of a socket address is read as that address. Each
reader is given the text that the writer makes and anything that does not go on with it
(`Text.Stops`). The eight groups of an IPv6 address come apart at their longest run of
zeros (`take_longestZeroRun`), and a group of hexadecimal digits is never taken for a
dotted address, because no point comes behind it (`readDotted_toDigits`).
-/
import ControlPlane.Net.AddressText
import ControlPlane.Proofs.Text.Digits

namespace ControlPlane

open Text (Stops takeWhile_run dropWhile_run head?_dropWhile_append)

namespace IpAddress

variable {rest : List Char}

/-! ## Numbers -/

section Numbers

variable {radix bound n : Nat} {most : Option Nat} {padded : Bool}

theorem readNumber_toDigits (hr : 1 < radix) (h16 : radix ≤ 16)
    (fits : ∀ m ∈ most, (Nat.toDigits radix n).length ≤ m) (hn : n < bound)
    (stops : Stops (Hex.isDigit radix) rest) :
    readNumber radix most bound padded (Nat.toDigits radix n ++ rest) = some (n, rest) := by
  have inside := Hex.isDigit_of_mem_toDigits hr h16 n
  have front := takeWhile_run inside stops
  have back := dropWhile_run inside stops
  have short : most.any (· < (Nat.toDigits radix n).length) = false := by
    cases most with
    | none => rfl
    | some m => simpa using fits m rfl
  have plain : ((Nat.toDigits radix n).head? == some '0' && decide (1 < (Nat.toDigits radix n).length)) = false := by
    by_cases zero : (Nat.toDigits radix n).head? = some '0'
    · simp [Hex.not_padded_toDigits hr h16 zero]
    · simp [zero]
  have filled : (Nat.toDigits radix n).isEmpty = false := by simp [Nat.toDigits_ne_nil]
  unfold Hex.isDigit at front back
  simp only [readNumber, front, back, Hex.foldl_toDigits hr h16, short, filled, Bool.and_assoc, plain]
  simpa using hn

theorem readNumber_eq_none {s : List Char} (stops : Stops (Hex.isDigit radix) s) :
    readNumber radix most bound padded s = none := by
  have nothing : s.takeWhile (Hex.isDigit radix) = [] := @takeWhile_run _ [] s (by simp) stops
  unfold Hex.isDigit at nothing
  simp [readNumber, nothing]

theorem rest_of_readNumber {s t : List Char} (h : readNumber radix most bound padded s = some (n, t)) :
    t = s.dropWhile (Hex.isDigit radix) := by
  simp only [readNumber] at h
  split at h
  · cases h
  · simp only [Option.some.injEq, Prod.mk.injEq] at h
    exact h.2.symm

end Numbers

@[simp] theorem skip_cons (c : Char) (s : List Char) : skip c (c :: s) = some s := by simp [skip]

theorem skip_eq_none {c : Char} {s : List Char} (h : s.head? ≠ some c) : skip c s = none := by
  cases s with
  | nil => rfl
  | cons d s =>
    have other : c ≠ d := fun same => h (by simp [same])
    simp [skip, other]

/-! ## Dotted addresses -/

theorem readOctet_toDigits {n : Nat} (hn : n < 256) (stops : Stops (Hex.isDigit 10) rest) :
    readOctet (Nat.toDigits 10 n ++ rest) = some (n, rest) := by
  refine readNumber_toDigits (by decide) (by decide) ?_ hn stops
  intro m hm
  cases hm
  exact (Nat.length_toDigits_le_iff (by decide) (by decide)).2 (by omega)

/-- A dotted address is four octets that spell it. -/
theorem exists_octets (bits : BitVec 32) : ∃ a b c d : Nat, a < 256 ∧ b < 256 ∧ c < 256 ∧ d < 256 ∧
    (dotted bits).toList = Nat.toDigits 10 a ++ '.' :: (Nat.toDigits 10 b ++ '.' ::
      (Nat.toDigits 10 c ++ '.' :: Nat.toDigits 10 d)) ∧
    BitVec.ofNat 32 (((a * 256 + b) * 256 + c) * 256 + d) = bits := by
  have spelled := Bytes.value_bigEndian 4 bits.toNat
  obtain ⟨a, b, c, d, octets⟩ : ∃ a b c d, Bytes.bigEndian 4 bits.toNat = [a, b, c, d] := ⟨_, _, _, _, rfl⟩
  refine ⟨a.toNat, b.toNat, c.toNat, d.toNat, a.toNat_lt, b.toNat_lt, c.toNat_lt, d.toNat_lt, ?_, ?_⟩
  · simp [dotted, octets]
  · rw [octets, Bytes.span_four, Nat.mod_eq_of_lt bits.isLt] at spelled
    have value : ((a.toNat * 256 + b.toNat) * 256 + c.toNat) * 256 + d.toNat = bits.toNat := by
      simpa [Bytes.value] using spelled
    rw [value, BitVec.ofNat_toNat, BitVec.setWidth_eq]

theorem readDotted_dotted (bits : BitVec 32) (stops : Stops (Hex.isDigit 10) rest) :
    readDotted ((dotted bits).toList ++ rest) = some (bits, rest) := by
  obtain ⟨a, b, c, d, ha, hb, hc, hd, text, value⟩ := exists_octets bits
  have point : ∀ s, Stops (Hex.isDigit 10) ('.' :: s) := fun s => by simp [Hex.isDigit, Hex.digit?]
  simp only [text, List.append_assoc, List.cons_append, readDotted, bind, Option.bind,
    readOctet_toDigits ha (point _), readOctet_toDigits hb (point _), readOctet_toDigits hc (point _),
    readOctet_toDigits hd stops, skip_cons, value]
  rfl

/-! ## Groups -/

/-- A character that a group, or a dotted address in its place, may go on with. -/
def isGroupChar (c : Char) : Bool := Hex.isDigit 16 c || c == '.'

theorem stops_hex (stops : Stops isGroupChar rest) : Stops (Hex.isDigit 16) rest :=
  stops.mono fun c hc => by simp [isGroupChar, hc]

theorem stops_decimal (stops : Stops isGroupChar rest) : Stops (Hex.isDigit 10) rest := by
  refine stops.mono fun c hc => ?_
  have digit : Hex.isDigit 16 c = true := by
    cases h : Hex.digit? c with
    | none => simp [Hex.isDigit, h] at hc
    | some d => simp [Hex.isDigit, h] at hc ⊢; omega
  simp [isGroupChar, digit]

/-- Hexadecimal digits are no dotted address, unless a point comes behind them. -/
theorem readDotted_toDigits (g : Nat) (stops : Stops isGroupChar rest) :
    readDotted (Nat.toDigits 16 g ++ rest) = none := by
  cases first : readOctet (Nat.toDigits 16 g ++ rest) with
  | none => simp [readDotted, first]
  | some read =>
    obtain ⟨a, s⟩ := read
    have noPoint : s.head? ≠ some '.' := by
      rw [rest_of_readNumber first]
      intro point
      rcases head?_dropWhile_append (stops_decimal stops) point with inside | behind
      · exact absurd (Hex.isDigit_of_mem_toDigits (by decide) (by decide) g '.' inside) (by decide)
      · exact absurd (stops '.' behind) (by decide)
    simp [readDotted, first, skip_eq_none noPoint]

theorem readDotted_stops (stops : Stops isGroupChar rest) : readDotted rest = none := by
  have nothing : readOctet rest = none := readNumber_eq_none (stops_decimal stops)
  rw [readDotted, nothing]
  rfl

/-- No group begins at the front, and none behind a colon at the front. -/
def Ends (rest : List Char) : Prop := Stops isGroupChar rest ∧ ∀ s, skip ':' rest = some s → Stops isGroupChar s

theorem ends_colons (s : List Char) : Ends (':' :: ':' :: s) := by
  refine ⟨by simp [isGroupChar, Hex.isDigit, Hex.digit?], fun t ht => ?_⟩
  rw [skip_cons] at ht
  cases ht
  simp [isGroupChar, Hex.isDigit, Hex.digit?]

theorem ends_cons {c : Char} (group : isGroupChar c = false) (colon : c ≠ ':') (s : List Char) : Ends (c :: s) :=
  ⟨by simp [group], fun t ht => by rw [skip_eq_none (by simpa using colon)] at ht; cases ht⟩

theorem readGroups_ends (ends : Ends rest) (first : Bool) (room : Nat) :
    readGroups first room rest = ([], false, rest) := by
  cases room with
  | zero => rfl
  | succ room =>
    rw [readGroups]
    cases first with
    | true => simp [readDotted_stops ends.1, readNumber_eq_none (stops_hex ends.1)]
    | false =>
      cases colon : skip ':' rest with
      | none => simp
      | some s =>
        have stops := ends.2 s colon
        simp [readDotted_stops stops, readNumber_eq_none (stops_hex stops)]

/-- One group, at the very front or behind a colon. -/
theorem readGroups_group {g : Nat} (hg : g < 65536) (first : Bool) (s : List Char)
    (front : (if first then some s else skip ':' s) = some (Nat.toDigits 16 g ++ rest))
    (stops : Stops isGroupChar rest) (room : Nat) :
    readGroups first (room + 1) s =
      (g :: (readGroups false room rest).1, (readGroups false room rest).2.1, (readGroups false room rest).2.2) := by
  have number : readNumber 16 (some 4) 65536 true (Nat.toDigits 16 g ++ rest) = some (g, rest) := by
    refine readNumber_toDigits (by decide) (by decide) ?_ hg (stops_hex stops)
    intro m hm
    cases hm
    exact (Nat.length_toDigits_le_iff (by decide) (by decide)).2 (by omega)
  rw [readGroups, front]
  simp [readDotted_toDigits g stops, number]

/-- Groups with a colon in front of each. -/
def tailGroups (gs : List Nat) : List Char := gs.flatMap fun g => ':' :: Nat.toDigits 16 g

theorem toList_colonHex (g : Nat) (gs : List Nat) :
    (colonHex (g :: gs)).toList = Nat.toDigits 16 g ++ tailGroups gs := by
  have digits : ∀ gs, (colonHex gs).toList = [':'].intercalate (gs.map (Nat.toDigits 16)) := fun gs => by
    simp [colonHex, Function.comp_def]
  induction gs generalizing g with
  | nil => simp [digits, tailGroups]
  | cons h gs ih =>
    have next := ih h
    rw [digits, List.map_cons] at next ⊢
    simp [next, tailGroups]

theorem stops_tailGroups (gs : List Nat) (ends : Ends rest) : Stops isGroupChar (tailGroups gs ++ rest) := by
  cases gs with
  | nil => exact ends.1
  | cons g gs => simp [tailGroups, isGroupChar, Hex.isDigit, Hex.digit?]

theorem readGroups_tailGroups {gs : List Nat} (lt : ∀ g ∈ gs, g < 65536) (ends : Ends rest) {room : Nat}
    (fits : gs.length ≤ room) : readGroups false room (tailGroups gs ++ rest) = (gs, false, rest) := by
  induction gs generalizing room with
  | nil => exact readGroups_ends ends false room
  | cons g gs ih =>
    obtain ⟨room, rfl⟩ : ∃ r, room = r + 1 := ⟨room - 1, by simp at fits; omega⟩
    have step := readGroups_group (lt g (by simp)) false (tailGroups (g :: gs) ++ rest) (by simp [tailGroups])
      (stops_tailGroups gs ends) room
    rw [step, ih (fun g hg => lt g (by simp [hg])) (by simpa using fits)]

theorem readGroups_colonHex {gs : List Nat} (lt : ∀ g ∈ gs, g < 65536) (ends : Ends rest) {room : Nat}
    (fits : gs.length ≤ room) : readGroups true room ((colonHex gs).toList ++ rest) = (gs, false, rest) := by
  cases gs with
  | nil => exact readGroups_ends ends true room
  | cons g gs =>
    obtain ⟨room, rfl⟩ : ∃ r, room = r + 1 := ⟨room - 1, by simp at fits; omega⟩
    have step := readGroups_group (lt g (by simp)) true ((colonHex (g :: gs)).toList ++ rest)
      (by simp [toList_colonHex]) (stops_tailGroups gs ends) room
    rw [step, readGroups_tailGroups (fun g hg => lt g (by simp [hg])) ends (by simpa using fits)]

/-! ## The run of zeros -/

theorem take_zeroRun (gs : List Nat) {len : Nat} (h : len ≤ zeroRun gs) : gs.take len = List.replicate len 0 := by
  have front : gs.take len = (gs.takeWhile (· == 0)).take len := by
    rw [← List.takeWhile_append_dropWhile (p := (· == 0)) (l := gs), List.take_append_of_le_length h]
    simp
  refine List.eq_replicate_iff.2 ⟨?_, fun g hg => ?_⟩
  · rw [front, List.length_take]
    exact Nat.min_eq_left h
  · rw [front] at hg
    simpa using List.all_eq_true.1 List.all_takeWhile g (List.mem_of_mem_take hg)

/-- What is found to be a run of zeros is one. -/
theorem take_longestZeroRun (gs : List Nat) :
    (gs.drop (longestZeroRun gs).1).take (longestZeroRun gs).2 = List.replicate (longestZeroRun gs).2 0 := by
  refine take_zeroRun _ ?_
  refine List.foldlRecOn (motive := fun best : Nat × Nat => best.2 ≤ zeroRun (gs.drop best.1)) _ _ (Nat.zero_le _) ?_
  intro best held i _
  split
  · exact Nat.le_refl _
  · exact held

/-! ## IPv6 addresses -/

theorem lt_of_mem_groupsOf {count n g : Nat} (h : g ∈ groupsOf count n) : g < 65536 := by
  induction count generalizing n with
  | zero => cases h
  | succ count ih =>
    rcases List.mem_append.1 h with front | last
    · exact ih front
    · rw [List.mem_singleton.1 last]
      exact Nat.mod_lt _ (by decide)

@[simp] theorem length_groupsOf (count n : Nat) : (groupsOf count n).length = count := by
  induction count generalizing n with
  | zero => rfl
  | succ count ih => simp [groupsOf, ih]

/-- Groups spell the number they were made of, reduced to what they hold. -/
theorem ofGroups_groupsOf (count n : Nat) : ofGroups (groupsOf count n) = n % 65536 ^ count := by
  induction count generalizing n with
  | zero => simp [groupsOf, ofGroups, Nat.mod_one]
  | succ count ih =>
    have front := ih (n / 65536)
    have split : n % 65536 ^ (count + 1) = n % 65536 + 65536 * (n / 65536 % 65536 ^ count) := by
      rw [Nat.pow_succ', Nat.mod_mul]
    simp only [ofGroups, groupsOf, List.foldl_append, List.foldl_cons, List.foldl_nil] at front ⊢
    rw [front, split]
    omega

theorem readColonHex_whole {gs : List Nat} (size : gs.length = 8) (lt : ∀ g ∈ gs, g < 65536) (ends : Ends rest) :
    readColonHex ((colonHex gs).toList ++ rest) = some (BitVec.ofNat 128 (ofGroups gs), rest) := by
  simp [readColonHex, readGroups_colonHex lt ends (Nat.le_of_eq size), size]

/-- Two colons stand for the groups that are missing. -/
theorem readColonHex_gap (before after : List Nat) (size : before.length + after.length < 8)
    (lt : ∀ g ∈ before ++ after, g < 65536) (ends : Ends rest) :
    readColonHex ((colonHex before).toList ++ ':' :: ':' :: ((colonHex after).toList ++ rest)) =
      some (BitVec.ofNat 128
        (ofGroups (before ++ List.replicate (8 - before.length - after.length) 0 ++ after)), rest) := by
  have head := readGroups_colonHex (fun g hg => lt g (by simp [hg]))
    (ends_colons ((colonHex after).toList ++ rest)) (by omega : before.length ≤ 8)
  have tail := readGroups_colonHex (fun g hg => lt g (by simp [hg])) ends
    (by omega : after.length ≤ 7 - before.length)
  have short : before.length ≠ 8 := by omega
  simp [readColonHex, head, tail, short]

theorem readColonHex_compressed {gs : List Nat} (size : gs.length = 8) (lt : ∀ g ∈ gs, g < 65536)
    (ends : Ends rest) :
    readColonHex ((compressed gs).toList ++ rest) = some (BitVec.ofNat 128 (ofGroups gs), rest) := by
  have zeros := take_longestZeroRun gs
  simp only [compressed]
  generalize (longestZeroRun gs).1 = start at zeros ⊢
  generalize (longestZeroRun gs).2 = len at zeros ⊢
  by_cases long : 1 < len
  · have fits := congrArg List.length zeros
    simp only [List.length_take, List.length_drop, List.length_replicate, size] at fits
    have gap := readColonHex_gap (gs.take start) (gs.drop (start + len))
      (by simp only [List.length_take, List.length_drop]; omega)
      (fun g hg => lt g (by
        rcases List.mem_append.1 hg with front | back
        · exact List.mem_of_mem_take front
        · exact List.mem_of_mem_drop back)) ends
    have missing : 8 - (gs.take start).length - (gs.drop (start + len)).length = len := by
      simp only [List.length_take, List.length_drop]
      omega
    have whole : gs.take start ++ List.replicate len 0 ++ gs.drop (start + len) = gs := by
      rw [← zeros, List.append_assoc, ← List.drop_drop, List.take_append_drop, List.take_append_drop]
    rw [missing, whole] at gap
    simpa [if_pos long] using gap
  · rw [if_neg long]
    exact readColonHex_whole size lt ends

theorem mapped_of_unmapped? {bits : BitVec 128} {inner : BitVec 32} (h : unmapped? bits = some inner) :
    mapped inner = bits := by
  have small := bits.isLt
  rw [unmapped?, Bytes.span_four] at h
  split at h
  · rename_i high
    cases h
    apply BitVec.eq_of_toNat_eq
    simp only [mapped, Bytes.span_four, BitVec.toNat_ofNat]
    omega
  · cases h

theorem readColonHex_mapped (inner : BitVec 32) (stops : Stops (Hex.isDigit 10) rest) :
    readColonHex (("::ffff:" ++ dotted inner).toList ++ rest) = some (mapped inner, rest) := by
  have small := inner.isLt
  have text : ("::ffff:" ++ dotted inner).toList ++ rest =
      ':' :: ':' :: (Nat.toDigits 16 0xFFFF ++ ':' :: ((dotted inner).toList ++ rest)) := by
    simp only [String.toList_append, List.append_assoc]
    rfl
  have head := readGroups_ends (ends_colons (Nat.toDigits 16 0xFFFF ++ ':' :: ((dotted inner).toList ++ rest)))
    true 8
  have last : readGroups false 6 (':' :: ((dotted inner).toList ++ rest)) =
      ([inner.toNat / 65536, inner.toNat % 65536], true, rest) := by
    simp [readGroups, readDotted_dotted inner stops]
  have tail := readGroups_group (g := 0xFFFF) (by decide) true
    (Nat.toDigits 16 0xFFFF ++ ':' :: ((dotted inner).toList ++ rest)) rfl
    (by simp [isGroupChar, Hex.isDigit, Hex.digit?]) 6
  rw [last] at tail
  have value : ofGroups (List.replicate 5 0 ++ [0xFFFF, inner.toNat / 65536, inner.toNat % 65536]) =
      0xFFFF * Bytes.span 4 + inner.toNat := by
    simp only [ofGroups, List.replicate, List.cons_append, List.nil_append, List.foldl_cons, List.foldl_nil,
      Bytes.span_four]
    omega
  rw [text]
  simp only [readColonHex, head, List.length_nil, Nat.reduceEqDiff, ↓reduceIte, Bool.false_eq_true, skip_cons,
    bind, Option.bind, Nat.sub_zero, tail, List.length_cons, Nat.reduceAdd, Nat.reduceSub, List.nil_append, value]
  rfl

/-- The text of an IPv6 address is read as that address. -/
theorem readColonHex_render (bits : BitVec 128) (ends : Ends rest) :
    readColonHex ((render (.v6 bits)).toList ++ rest) = some (bits, rest) := by
  rw [render]
  cases held : unmapped? bits with
  | some inner =>
    have same := mapped_of_unmapped? held
    simpa only [same] using readColonHex_mapped inner (stops_decimal ends.1)
  | none =>
    have spelled : BitVec.ofNat 128 (ofGroups (groupsOf 8 bits.toNat)) = bits := by
      rw [ofGroups_groupsOf, Nat.mod_eq_of_lt (by have := bits.isLt; omega), BitVec.ofNat_toNat, BitVec.setWidth_eq]
    rw [readColonHex_compressed (length_groupsOf 8 _) (fun g => lt_of_mem_groupsOf) ends, spelled]

end IpAddress

namespace SocketAddress

open IpAddress (Ends ends_cons readColonHex_render readDotted_dotted readNumber readNumber_toDigits skip_cons
  skip_eq_none)

/-! ## Sockets -/

theorem readPort_toDigits (port : UInt16) : readPort (':' :: Nat.toDigits 10 port.toNat) = some (port, []) := by
  have number : readNumber 10 none (Bytes.span 2) true (Nat.toDigits 10 port.toNat ++ []) =
      some (port.toNat, []) :=
    readNumber_toDigits (by decide) (by decide) (by simp) port.toNat_lt (by simp)
  rw [List.append_nil] at number
  simp [readPort, number]

theorem readZone_render (zone : UInt32) (s : List Char) :
    readZone ((if zone = 0 then "" else "%" ++ toString zone.toNat).toList ++ ']' :: s) = (zone, ']' :: s) := by
  by_cases zero : zone = 0
  · have bracket : IpAddress.skip '%' (']' :: s) = none := skip_eq_none (by simp)
    simp [zero, readZone, bracket]
  · have number : readNumber 10 none (Bytes.span 4) true (Nat.toDigits 10 zone.toNat ++ ']' :: s) =
        some (zone.toNat, ']' :: s) :=
      readNumber_toDigits (by decide) (by decide) (by simp) zone.toNat_lt (by simp [Hex.isDigit, Hex.digit?])
    simp [zero, readZone, number]

theorem ends_zone (zone : UInt32) (s : List Char) :
    Ends ((if zone = 0 then "" else "%" ++ toString zone.toNat).toList ++ ']' :: s) := by
  by_cases zero : zone = 0
  · simpa [zero] using ends_cons (by decide) (by decide) s
  · simpa [zero] using ends_cons (by decide) (by decide) _

/-- The canonical text of a socket address is read as that address. -/
theorem ofText?_render (a : SocketAddress) (zone : a.ip.family = .v4 → a.zone = 0) :
    ofText? a.render = some a := by
  obtain ⟨ip, port, z⟩ := a
  cases ip with
  | v4 bits =>
    cases zone rfl
    have read : readV4 (render ⟨.v4 bits, port, 0⟩).toList = some (⟨.v4 bits, port, 0⟩, []) := by
      have colon : Text.Stops (Hex.isDigit 10) (':' :: Nat.toDigits 10 port.toNat) := by
        simp [Hex.isDigit, Hex.digit?]
      simp [render, IpAddress.render, readV4, readDotted_dotted bits colon, readPort_toDigits]
    simp [ofText?, read]
  | v6 bits =>
    have noDotted : readV4 (render ⟨.v6 bits, port, z⟩).toList = none := by
      have bracket : IpAddress.readDotted (render ⟨.v6 bits, port, z⟩).toList = none := by
        apply IpAddress.readDotted_stops
        simp [render, IpAddress.isGroupChar, Hex.isDigit, Hex.digit?]
      simp [readV4, bracket]
    have read : readV6 (render ⟨.v6 bits, port, z⟩).toList = some (⟨.v6 bits, port, z⟩, []) := by
      have text : (render ⟨.v6 bits, port, z⟩).toList = '[' :: ((IpAddress.render (.v6 bits)).toList ++
          ((if z = 0 then "" else "%" ++ toString z.toNat).toList ++ ']' :: ':' :: Nat.toDigits 10 port.toNat)) := by
        simp [render]
      rw [text]
      simp only [readV6, skip_cons, bind, Option.bind, readColonHex_render bits (ends_zone z _), readZone_render,
        readPort_toDigits]
      rfl
    simp [ofText?, noDotted, read]

theorem zone_of_readV4 {s rest : List Char} {a : SocketAddress} (h : readV4 s = some (a, rest)) : a.zone = 0 := by
  simp only [readV4, bind, pure, Option.bind_eq_some_iff, Option.some.injEq, Prod.mk.injEq] at h
  obtain ⟨_, _, _, _, rfl, _⟩ := h
  rfl

theorem family_of_readV6 {s rest : List Char} {a : SocketAddress} (h : readV6 s = some (a, rest)) :
    a.ip.family = .v6 := by
  simp only [readV6, bind, pure, Option.bind_eq_some_iff, Option.some.injEq, Prod.mk.injEq] at h
  obtain ⟨_, _, _, _, _, _, _, _, rfl, _⟩ := h
  rfl

/-- No zone is read for an IPv4 address. -/
theorem zone_of_ofText? {text : String} {a : SocketAddress} (h : ofText? text = some a)
    (v4 : a.ip.family = .v4) : a.zone = 0 := by
  have read : (readV4 text.toList).orElse (fun _ => readV6 text.toList) = some (a, []) := by
    rw [ofText?] at h
    split at h
    · cases h
      assumption
    · cases h
  cases first : readV4 text.toList with
  | some r =>
    rw [first] at read
    cases read
    exact zone_of_readV4 first
  | none =>
    rw [first] at read
    rw [family_of_readV6 read] at v4
    cases v4

end SocketAddress

end ControlPlane
