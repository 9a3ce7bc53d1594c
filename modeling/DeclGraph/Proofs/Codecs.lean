import Mathlib.Data.List.DropRight
import Mathlib.Tactic.Common
import DeclGraph.Json.Codec

/-!
# Codecs that read back what they write

A codec is faithful if what it writes reads back as the value that was written, whatever stands
behind it. Only a number has to be told from what follows: a digit, a point or an exponent would
go on with it, and nothing of the kind is ever written behind a value.

* `EndsNumber`: what may stand behind a number.
* `blockTail`: what is written after an opening bracket, part by part.
* `Codec.Faithful`: **what is written reads back**, with a theorem for each kind of codec.
-/

namespace DeclGraph.Json

/-! ## Blanks -/

theorem skipBlanks_cons {c : Char} (hc : isBlank c = false) (s : List Char) :
    skipBlanks (c :: s) = c :: s := by
  simp [skipBlanks, hc]

theorem skipBlanks_of_isBlank {c : Char} (hc : isBlank c = true) (s : List Char) :
    skipBlanks (c :: s) = skipBlanks s := by
  simp [skipBlanks, hc]

theorem skipBlanks_skipBlanks (s : List Char) : skipBlanks (skipBlanks s) = skipBlanks s :=
  List.dropWhile_idempotent ..

/-- A line begins with blanks only. -/
theorem skipBlanks_line (depth : Nat) (s : List Char) :
    skipBlanks ('\n' :: (indent depth ++ s)) = skipBlanks s := by
  rw [skipBlanks_of_isBlank rfl]
  have hind : ∀ c ∈ indent depth, isBlank c = true := by
    intro c hc
    rw [List.eq_of_mem_replicate hc]
    rfl
  exact List.dropWhile_append_of_pos hind

/-! ## Numbers -/

theorem not_isBlank_of_isDigit {c : Char} (hc : c.isDigit = true) : isBlank c = false := by
  by_contra h
  simp only [isBlank, Bool.not_eq_false, Bool.or_eq_true, beq_iff_eq] at h
  rcases h with ((rfl | rfl) | rfl) | rfl <;> exact absurd hc (by decide)

theorem ne_of_isDigit {c d : Char} (hc : c.isDigit = true) (hd : d.isDigit = false) : c ≠ d := by
  rintro rfl
  rw [hc] at hd
  cases hd

/-- The text does not go on with what could belong to a number before it. -/
def EndsNumber (rest : List Char) : Prop :=
  ∀ c ∈ rest.head?, c.isDigit = false ∧ c ≠ '.' ∧ c ≠ 'e' ∧ c ≠ 'E'

theorem endsNumber_nil : EndsNumber [] := by simp [EndsNumber]

/-- Digits read onto a number only make it larger. -/
theorem le_ofDigitChars (n : Nat) (ds : List Char) : n ≤ Nat.ofDigitChars 10 ds n := by
  induction ds generalizing n with
  | nil => exact Nat.le_of_eq (by simp [Nat.ofDigitChars])
  | cons d ds ih =>
    rw [Nat.ofDigitChars_cons]
    exact Nat.le_trans (by omega) (ih _)

/-- Digits whose number fits are all read. -/
theorem accumulate_of_le {n : Nat} {ds : List Char}
    (h : Nat.ofDigitChars 10 ds n ≤ maxNatural) :
    accumulate n ds = (Nat.ofDigitChars 10 ds n, []) := by
  induction ds generalizing n with
  | nil => simp [accumulate, Nat.ofDigitChars]
  | cons d ds ih =>
    rw [Nat.ofDigitChars_cons] at h ⊢
    have hnext : 10 * n + (d.toNat - '0'.toNat) ≤ maxNatural :=
      Nat.le_trans (le_ofDigitChars ..) h
    rw [accumulate, if_neg (by omega), Nat.mul_comm n 10]
    exact ih h

/-- Only the numeral of zero begins with a zero. -/
theorem head?_toDigits_ne_zero {n : Nat} (hn : 0 < n) :
    (Nat.toDigits 10 n).head? ≠ some '0' := by
  induction n using Nat.strongRecOn with
  | _ n ih =>
    rcases Nat.lt_or_ge n 10 with hlt | hge
    · have hdigit : ∀ k < 10, 0 < k → Nat.digitChar k ≠ '0' := by decide
      rw [Nat.toDigits_of_lt_base hlt]
      simpa using hdigit n hlt hn
    · rw [Nat.toDigits_of_base_le (by decide) hge,
        List.head?_append_of_ne_nil _ Nat.toDigits_ne_nil]
      exact ih (n / 10) (by omega) (by omega)

/-- A numeral begins with a digit, and with a zero only if it is that of zero. -/
theorem decimal_eq_cons (n : Nat) :
    ∃ d ds, Text.decimal n = d :: ds ∧ d.isDigit = true ∧ (d = '0' → n = 0) := by
  obtain ⟨d, ds, hds⟩ := List.exists_cons_of_ne_nil (Nat.toDigits_ne_nil (n := n) (b := 10))
  have hd : d ∈ Nat.toDigits 10 n := by simp [hds]
  refine ⟨d, ds, hds, Nat.isDigit_of_mem_toDigits (by decide) (by decide) hd, ?_⟩
  rintro rfl
  by_contra hn
  exact head?_toDigits_ne_zero (Nat.pos_of_ne_zero hn) (by rw [hds]; rfl)

/-- The digits of a numeral end where it ends. -/
theorem span_decimal (n : Nat) {rest : List Char} (hrest : EndsNumber rest) :
    (Text.decimal n ++ rest).takeWhile Char.isDigit = Text.decimal n ∧
      (Text.decimal n ++ rest).dropWhile Char.isDigit = rest := by
  have hdigits : ∀ c ∈ Text.decimal n, c.isDigit = true := fun c hc =>
    Nat.isDigit_of_mem_toDigits (by decide) (by decide) hc
  rw [List.takeWhile_append_of_pos hdigits, List.dropWhile_append_of_pos hdigits]
  cases rest with
  | nil => simp
  | cons c r => simp [(hrest c (by simp)).1]

/-- Behind the digits of a number there is no fraction and no exponent. -/
theorem readTail_of_endsNumber (n : Nat) {rest : List Char} (hrest : EndsNumber rest) :
    readTail true n 0 rest = .ok (.natural n, rest) := by
  cases rest with
  | nil => rfl
  | cons c r =>
    obtain ⟨-, hpoint, he, hE⟩ := hrest c (by simp)
    unfold readTail
    split <;> simp_all

/-- A numeral reads as its number. -/
theorem readNumber_decimal {n : Nat} (hn : n ≤ maxNatural) {rest : List Char}
    (hrest : EndsNumber rest) :
    readNumber true (Text.decimal n ++ rest) = .ok (.natural n, rest) := by
  obtain ⟨d, ds, hds, hd, hzero⟩ := decimal_eq_cons n
  have hspan := span_decimal n hrest
  have hvalue : Nat.ofDigitChars 10 (Text.decimal n) 0 = n := Nat.ofDigitChars_ten_toDigits
  have hread : accumulate 0 (Text.decimal n) = (n, []) := by
    rw [accumulate_of_le (by rw [hvalue]; exact hn), hvalue]
  by_cases hd0 : d = '0'
  · -- a zero stands alone, and what follows it is no digit
    obtain rfl := hzero hd0
    rw [show Text.decimal 0 = ['0'] by decide]
    cases rest with
    | nil => rfl
    | cons c r =>
      simp only [List.cons_append, List.nil_append, readNumber, (hrest c (by simp)).1]
      exact readTail_of_endsNumber 0 hrest
  · rw [hds] at hspan hread ⊢
    rw [List.cons_append] at hspan ⊢
    simp only [readNumber, hd, if_true, hspan, hread]
    exact readTail_of_endsNumber n hrest

/-- A number within the bound of a field reads back from its numeral. -/
theorem readNatural_decimal {bound n : Nat} (expected : String) (hbound : bound ≤ maxNatural)
    (hn : n ≤ bound) {rest : List Char} (hrest : EndsNumber rest) :
    readNatural bound expected (Text.decimal n ++ rest) = .ok (n, rest) := by
  have hread := readNumber_decimal (Nat.le_trans hn hbound) hrest
  obtain ⟨d, ds, hds, hd, -⟩ := decimal_eq_cons n
  rw [hds, List.cons_append] at hread ⊢
  have hminus : d ≠ '-' := ne_of_isDigit hd rfl
  simp [readNatural, skipBlanks_cons (not_isBlank_of_isDigit hd), hd, hread, expectNatural, hn,
    bind, Except.bind]

/-! ## Blocks -/

/-- What is written after an opening bracket: each part on a line of its own, all but the first
after a comma, and then the closing bracket. -/
def blockTail (closing : Char) (depth : Nat) : Bool → List (List Char) → List Char
  | true, [] => [closing]
  | false, [] => '\n' :: (indent depth ++ [closing])
  | true, p :: parts => '\n' :: (indent (depth + 1) ++ (p ++ blockTail closing depth false parts))
  | false, p :: parts =>
    ',' :: '\n' :: (indent (depth + 1) ++ (p ++ blockTail closing depth false parts))

theorem join_parts (closing : Char) (depth : Nat) (p : List Char) (parts : List (List Char)) :
    Text.join [',', '\n'] ((p :: parts).map (indent (depth + 1) ++ ·)) ++
        '\n' :: (indent depth ++ [closing]) =
      indent (depth + 1) ++ (p ++ blockTail closing depth false parts) := by
  induction parts generalizing p with
  | nil => simp [Text.join, blockTail]
  | cons p' parts ih => simpa [Text.join, blockTail] using ih p'

theorem writeBlock_eq (opening closing : Char) (depth : Nat) (parts : List (List Char)) :
    writeBlock opening closing depth parts = opening :: blockTail closing depth true parts := by
  cases parts with
  | nil => rfl
  | cons p parts => simpa [writeBlock, blockTail] using join_parts closing depth p parts

/-- Every part takes a character. -/
theorem length_lt_blockTail (closing : Char) (depth : Nat) (isFirst : Bool)
    (parts : List (List Char)) (rest : List Char) :
    parts.length < (blockTail closing depth isFirst parts ++ rest).length + 1 := by
  have hle : parts.length ≤ (blockTail closing depth isFirst parts).length := by
    induction parts generalizing isFirst with
    | nil => exact Nat.zero_le _
    | cons p parts ih =>
      have := ih false
      cases isFirst <;> simp only [blockTail, List.length_cons, List.length_append] <;> omega
  rw [List.length_append]
  omega

/-- Behind a part stands a comma or the end of a line. -/
theorem endsNumber_blockTail (closing : Char) (depth : Nat) (parts : List (List Char))
    (rest : List Char) : EndsNumber (blockTail closing depth false parts ++ rest) := by
  cases parts <;>
    · rintro c ⟨⟩
      decide

/-! ## Faithful codecs -/

/-- What a codec writes reads back. -/
structure Codec.Faithful {α : Type} (c : Codec α) : Prop where
  /-- Blanks before a value do not matter. -/
  read_blanks : ∀ s, c.read (skipBlanks s) = c.read s
  /-- A value begins with neither a blank nor the end of a list. -/
  written : ∀ depth a, ∃ x w, c.write depth a = x :: w ∧ isBlank x = false ∧ x ≠ ']'
  /-- A value reads back from what was written, and nothing behind it is read. -/
  read_write : ∀ depth a rest, EndsNumber rest →
    c.read (c.write depth a ++ rest) = .ok (a, rest)

/-- Nothing that the codec writes begins as null does. -/
def Codec.NeverNull {α : Type} (c : Codec α) : Prop :=
  ∀ depth a, (c.write depth a).head? ≠ some 'n'

namespace Codec

theorem faithful_text : text.Faithful where
  read_blanks s := by simp only [text, readText, skipBlanks_skipBlanks]
  written _ s := ⟨'"', _, rfl, rfl, by decide⟩
  read_write _ s rest _ := by
    simp [text, readText, writeText, skipBlanks_cons, isBlank, readChars_writeText, Except.map]

theorem neverNull_text : text.NeverNull := fun _ s => by simp [text, writeText]

theorem faithful_bool : bool.Faithful where
  read_blanks s := by simp only [bool, readBool, skipBlanks_skipBlanks]
  written _ b := by cases b <;> exact ⟨_, _, rfl, rfl, by decide⟩
  read_write _ b rest _ := by
    cases b with
    | false =>
      change readBool ('f' :: 'a' :: 'l' :: 's' :: 'e' :: rest) = _
      simp [readBool, skipBlanks_cons, isBlank, readWord, Except.map]
    | true =>
      change readBool ('t' :: 'r' :: 'u' :: 'e' :: rest) = _
      simp [readBool, skipBlanks_cons, isBlank, readWord, Except.map]

section Numbers

variable {β : Type} {bound : Nat} {expected : String} {f : Nat → β} {g : β → Nat}

/-- A type of numbers whose values are within the bound. -/
theorem faithful_natural_map (hbound : bound ≤ maxNatural) (hg : ∀ b, g b ≤ bound)
    (hf : ∀ b, f (g b) = b) : ((natural bound expected).map f g).Faithful where
  read_blanks s := by simp only [map, natural, readNatural, skipBlanks_skipBlanks]
  written _ b := by
    obtain ⟨d, ds, hds, hd, -⟩ := decimal_eq_cons (g b)
    exact ⟨d, ds, hds, not_isBlank_of_isDigit hd, ne_of_isDigit hd rfl⟩
  read_write _ b rest hrest := by
    simp [map, natural, readNatural_decimal expected hbound (hg b) hrest, Except.map, hf]

theorem neverNull_natural_map : ((natural bound expected).map f g).NeverNull := by
  intro depth b
  obtain ⟨d, ds, hds, hd, -⟩ := decimal_eq_cons (g b)
  have hn : d ≠ 'n' := ne_of_isDigit hd rfl
  simpa [map, natural, hds] using hn

end Numbers

theorem faithful_byte : byte.Faithful :=
  faithful_natural_map (by decide) (fun b => Nat.le_of_lt_succ b.toNat_lt)
    fun _ => UInt8.ofNat_toNat

theorem faithful_word : word.Faithful :=
  faithful_natural_map (by decide) (fun b => Nat.le_of_lt_succ b.toNat_lt)
    fun _ => UInt32.ofNat_toNat

theorem faithful_long : long.Faithful :=
  faithful_natural_map (by decide) (fun b => Nat.le_of_lt_succ b.toNat_lt)
    fun _ => UInt64.ofNat_toNat

/-- A value that may be missing is told from null by its first character. -/
theorem Faithful.option {α : Type} {c : Codec α} (hc : c.Faithful) (hn : c.NeverNull) :
    (option c).Faithful where
  read_blanks s := by simp only [Codec.option, skipBlanks_skipBlanks]
  written depth a := by
    cases a with
    | none => exact ⟨'n', _, rfl, rfl, by decide⟩
    | some a => exact hc.written depth a
  read_write depth a rest hrest := by
    cases a with
    | none =>
      change (Codec.option c).read ('n' :: 'u' :: 'l' :: 'l' :: rest) = _
      simp [Codec.option, skipBlanks_cons, isBlank, readWord, Except.map]
    | some a =>
      obtain ⟨x, w, hw, hx, -⟩ := hc.written depth a
      have hread := hc.read_write depth a rest hrest
      have hxn : x ≠ 'n' := by simpa [hw] using hn depth a
      simp only [Codec.option, Option.map_some, Option.getD_some]
      rw [hw, List.cons_append] at hread ⊢
      rw [skipBlanks_cons hx]
      split
      · next h => exact absurd (List.cons.inj h).1 hxn
      · rw [hread]; rfl

/-- Names that the list of choices finds again. -/
theorem faithful_choice {α : Type} {choices : List (String × α)} {name : α → String}
    (h : ∀ a, choices.lookup (name a) = some a) : (choice choices name).Faithful where
  read_blanks s := by simp only [choice, readName, skipBlanks_skipBlanks]
  written _ a := ⟨'"', _, rfl, rfl, by decide⟩
  read_write _ a rest _ := by
    simp [choice, readName, writeText, skipBlanks_cons, isBlank, readChars_writeText, h, bind,
      Except.bind, pure, Except.pure]

/-! ## Lists -/

theorem nextElement?_blockTail_nil (depth : Nat) (isFirst : Bool) (rest : List Char) :
    nextElement? isFirst (blockTail ']' depth isFirst [] ++ rest) = .ok none := by
  have hend : isBlank ']' = false := rfl
  cases isFirst <;> simp [nextElement?, blockTail, skipBlanks_line, skipBlanks_cons, hend]

theorem endList_blockTail (depth : Nat) (isFirst : Bool) (rest : List Char) :
    endList (blockTail ']' depth isFirst [] ++ rest) = .ok rest := by
  have hend : isBlank ']' = false := rfl
  cases isFirst <;> simp [endList, blockTail, skipBlanks_line, skipBlanks_cons, hend]

theorem nextElement?_blockTail_cons (depth : Nat) (isFirst : Bool) {x : Char} {w : List Char}
    (hx : isBlank x = false) (hend : x ≠ ']') (parts : List (List Char)) (rest : List Char) :
    nextElement? isFirst (blockTail ']' depth isFirst ((x :: w) :: parts) ++ rest) =
      .ok (some (x :: w ++ (blockTail ']' depth false parts ++ rest))) := by
  have hcomma : isBlank ',' = false := rfl
  cases isFirst with
  | true => simp [nextElement?, blockTail, skipBlanks_line, skipBlanks_cons, hx]
  | false =>
    -- the comma is passed, and then the part is told from a closing bracket
    simp only [nextElement?, blockTail, List.cons_append, List.append_assoc,
      skipBlanks_cons hcomma]
    split
    · next h => cases h
    · next h => exact absurd (List.cons.inj h).1 (by decide)
    · next h =>
      obtain ⟨rfl, rfl⟩ := List.cons.inj h
      simp only [Bool.false_eq_true, if_false, if_true, skipBlanks_line, skipBlanks_cons hx]
      split
      · next h => cases h
      · next h => exact absurd (List.cons.inj h).1 hend
      · rfl

/-- Elements read back one by one up to the closing bracket. -/
theorem readElements_blockTail {α : Type} {c : Codec α} (hc : c.Faithful) (depth : Nat)
    (as : List α) (rest : List Char) {steps : Nat}
    (hsteps : (as.map (c.write (depth + 1))).length < steps) (isFirst : Bool) :
    readElements c.read steps isFirst
        (blockTail ']' depth isFirst (as.map (c.write (depth + 1))) ++ rest) = .ok (as, rest) := by
  induction as generalizing steps isFirst with
  | nil =>
    obtain ⟨steps, rfl⟩ := Nat.exists_eq_succ_of_ne_zero (Nat.ne_of_gt hsteps)
    simp [readElements, nextElement?_blockTail_nil, endList_blockTail, bind, Except.bind, pure,
      Except.pure]
  | cons a as ih =>
    obtain ⟨steps, rfl⟩ := Nat.exists_eq_succ_of_ne_zero (Nat.ne_of_gt (Nat.zero_lt_of_lt hsteps))
    obtain ⟨x, w, hw, hx, hend⟩ := hc.written (depth + 1) a
    have hread := hc.read_write (depth + 1) a _
      (endsNumber_blockTail ']' depth (as.map (c.write (depth + 1))) rest)
    have htail := ih (Nat.lt_of_succ_lt_succ hsteps) false
    rw [hw, List.cons_append] at hread
    simp [readElements, hw, nextElement?_blockTail_cons depth isFirst hx hend, hread, htail, bind,
      Except.bind, pure, Except.pure]

theorem Faithful.list {α : Type} {c : Codec α} (hc : c.Faithful) : (list c).Faithful where
  read_blanks s := by simp only [Codec.list, readList, skipBlanks_skipBlanks]
  written depth as := ⟨'[', _, writeBlock_eq .., rfl, by decide⟩
  read_write depth as rest _ := by
    have hopen : isBlank '[' = false := rfl
    simp only [Codec.list, readList, writeBlock_eq, List.cons_append, skipBlanks_cons hopen]
    exact readElements_blockTail hc depth as rest (length_lt_blockTail ..) true

end Codec

end DeclGraph.Json
