import Mathlib.Data.List.Induction
import Mathlib.Data.Nat.Digits.Defs
import DeclGraph.Proofs.Alike

/-!
# Dimensions as they are written

A dimension is a numeral in brackets: decimal, or hexadecimal after a mark, of any length and with
or without a suffix. It counts as its value, unless that is beyond a word: then it counts as zero,
as what is no numeral does.

* `Declarator.Numeral`: a numeral by its parts, and its value.
* `Declarator.dimension_text`: **what a numeral counts as.**
* `Declarator.takeDimensions_bracketText`: all dimensions come off the end of a text, whatever is
  in their brackets.
-/

namespace DeclGraph

open Text Name

namespace Declarator

/-! ## Digits -/

/-- The number that a digit stands for. -/
def digit (c : Char) : Nat := (digitValue c).getD 0

section Digits

variable {base n : Nat} {c : Char} {ds : List Char}

/-- Digits that are read onto a number make one number with it. -/
theorem readDigits_eq_ofDigits (hds : ∀ c ∈ ds, ∃ d ∈ digitValue c, d < base) (n : Nat) :
    readDigits base n ds = some (Nat.ofDigits base (ds.reverse.map digit ++ [n])) := by
  induction ds generalizing n with
  | nil => rw [readDigits, List.reverse_nil, List.map_nil, List.nil_append, Nat.ofDigits_singleton]
  | cons c ds ih =>
    rw [List.forall_mem_cons] at hds
    obtain ⟨⟨d, hd, hlt⟩, hds⟩ := hds
    have hdigit : digit c = d := by rw [digit, hd, Option.getD_some]
    have hone : Nat.ofDigits base [n * base + d] = Nat.ofDigits base [d, n] := by
      rw [Nat.ofDigits_singleton, Nat.ofDigits_cons, Nat.ofDigits_singleton, Nat.mul_comm,
        Nat.add_comm]
    simp only [readDigits, Option.mem_def.1 hd, if_pos hlt]
    rw [ih hds, List.reverse_cons, List.map_append, List.append_assoc, Nat.ofDigits_append,
      Nat.ofDigits_append, List.map_singleton, hdigit, List.singleton_append, hone]

/-- A numeral is read unless it is beyond the bound. -/
theorem readUnsigned_eq_ofDigits (hds : ∀ c ∈ ds, ∃ d ∈ digitValue c, d < base) (hne : ds ≠ [])
    (bound : Nat) : readUnsigned base bound ds =
      (some (Nat.ofDigits base (ds.reverse.map digit))).filter (· ≤ bound) := by
  have hplus : after? ['+'] ds = none := by
    obtain ⟨c, r, rfl⟩ := List.exists_cons_of_ne_nil hne
    have hc : '+' ≠ c := by
      rintro rfl
      obtain ⟨d, hd, -⟩ := hds '+' List.mem_cons_self
      cases hd
    simp [after?, List.isPrefixOf?, hc]
  rw [readUnsigned, hplus, Option.getD_none, readDigits_eq_ofDigits hds,
    Nat.ofDigits_append_zero, if_neg (by simpa using hne)]

theorem toNat_of_isDigit (hc : c.isDigit = true) : 48 ≤ c.toNat ∧ c.toNat ≤ 57 := by
  simp only [Char.isDigit, Bool.and_eq_true, decide_eq_true_eq, ge_iff_le, UInt32.le_iff_toNat_le]
    at hc
  exact hc

theorem digitValue_of_isDigit (hc : c.isDigit = true) :
    digitValue c = some (c.toNat - '0'.toNat) ∧ c.toNat - '0'.toNat < 10 := by
  obtain ⟨-, hhigh⟩ := toNat_of_isDigit hc
  have hzero : '0'.toNat = 48 := rfl
  exact ⟨by rw [digitValue, if_pos hc], by omega⟩

theorem isDigit_of_mem_decimal (hc : c ∈ decimal n) : c.isDigit = true :=
  Nat.isDigit_of_mem_toDigits (by decide) (by decide) hc

/-- The decimal numeral of a number has its value. -/
theorem ofDigits_decimal (n : Nat) : Nat.ofDigits 10 ((decimal n).reverse.map digit) = n := by
  have hread : ∀ (ds : List Char) (m : Nat), (∀ c ∈ ds, c.isDigit = true) →
      readDigits 10 m ds = some (Nat.ofDigitChars 10 ds m) := by
    intro ds
    induction ds with
    | nil => exact fun _ _ => rfl
    | cons c ds ih =>
      intro m hds
      rw [List.forall_mem_cons] at hds
      obtain ⟨hvalue, hlt⟩ := digitValue_of_isDigit hds.1
      simp only [readDigits, hvalue, if_pos hlt]
      rw [ih _ hds.2, Nat.ofDigitChars_cons, Nat.mul_comm]
  have hdigits : ∀ c ∈ decimal n, c.isDigit = true := fun _ hc => isDigit_of_mem_decimal hc
  have hvalues : ∀ c ∈ decimal n, ∃ d ∈ digitValue c, d < 10 :=
    fun c hc => ⟨_, digitValue_of_isDigit (hdigits c hc)⟩
  have hpositional := readDigits_eq_ofDigits hvalues 0
  rw [hread _ _ hdigits, Nat.ofDigits_append_zero] at hpositional
  exact (Option.some.inj hpositional).symm.trans Nat.ofDigitChars_ten_toDigits

/-- What is a digit in some base is no blank. -/
theorem isBlank_of_digitValue {d : Nat} (hc : digitValue c = some d) : isBlank c = false := by
  have hall : ∀ k ∈ blankCodes, digitValue (Char.ofNat k) = none := by decide +kernel
  rw [Bool.eq_false_iff]
  intro hblank
  have hnone := hall _ (mem_blankCodes hblank)
  rw [Char.ofNat_toNat, hc] at hnone
  cases hnone

end Digits

/-! ## Numerals -/

/-- How the base of a numeral is marked. -/
inductive Radix
  | decimal | hex | hexCapital
  deriving DecidableEq, Repr

namespace Radix

/-- The base. -/
def base : Radix → Nat
  | decimal => 10
  | hex | hexCapital => 16

/-- What stands before the digits. -/
def mark : Radix → List Char
  | decimal => []
  | hex => ['0', 'x']
  | hexCapital => ['0', 'X']

end Radix

/-- A numeral as a dimension may be written. -/
structure Numeral where
  radix : Radix := .decimal
  /-- The digits, in capitals or not, the highest one first. -/
  digits : List Char
  /-- The suffix, if there is one. -/
  suffix : Option Char := none
  deriving DecidableEq, Repr

namespace Numeral

variable (n : Numeral)

/-- There are digits, all of the base, and the suffix is `u` or `U`. -/
structure Proper : Prop where
  nonempty : n.digits ≠ []
  digits : ∀ c ∈ n.digits, ∃ d ∈ digitValue c, d < n.radix.base
  suffix : ∀ c ∈ n.suffix, c = 'u' ∨ c = 'U'

/-- Whether a numeral is proper can be read off its parts. -/
theorem proper_iff : n.Proper ↔ (!n.digits.isEmpty &&
    n.digits.all (fun c => (digitValue c).any (· < n.radix.base)) &&
      n.suffix.all fun c => c == 'u' || c == 'U') = true := by
  simp only [Bool.and_eq_true, Bool.not_eq_true', List.isEmpty_eq_false_iff, List.all_eq_true,
    Option.any_eq_true, Option.all_eq_true, Bool.or_eq_true, beq_iff_eq, decide_eq_true_eq,
    and_assoc]
  exact ⟨fun h => ⟨h.nonempty, h.digits, h.suffix⟩, fun h => ⟨h.1, h.2.1, h.2.2⟩⟩

instance : Decidable n.Proper := decidable_of_iff _ n.proper_iff.symm

/-- The characters of the numeral. -/
def text : List Char := n.radix.mark ++ (n.digits ++ n.suffix.toList)

/-- The number that the digits make in their base. -/
def value : Nat := Nat.ofDigits n.radix.base (n.digits.reverse.map digit)

/-- What the numeral counts as where it is a dimension. -/
def counted : Nat := if n.value ≤ maxWord then n.value else 0

/-- The decimal numeral of a number. -/
def ofNat (k : Nat) : Numeral := { digits := Text.decimal k }

end Numeral

section Numerals

variable {n : Numeral}

theorem Numeral.proper_ofNat (k : Nat) : (Numeral.ofNat k).Proper where
  nonempty := Nat.toDigits_ne_nil
  digits := fun _ hc => ⟨_, digitValue_of_isDigit (isDigit_of_mem_decimal hc)⟩
  suffix := by simp [ofNat]

theorem Numeral.value_ofNat (k : Nat) : (ofNat k).value = k := ofDigits_decimal k

theorem Numeral.text_ofNat (k : Nat) : (ofNat k).text = Text.decimal k := List.append_nil _

namespace Numeral.Proper

variable (h : n.Proper)

include h

/-- No digit of either base is a suffix or the mark of a base. -/
theorem not_mem_digits {c : Char} (hc : ∀ d ∈ digitValue c, 16 ≤ d) : c ∉ n.digits := by
  intro hmem
  obtain ⟨d, hd, hlt⟩ := h.digits c hmem
  have hbase : n.radix.base ≤ 16 := by cases n.radix <;> decide
  have hhigh := hc d hd
  omega

/-- A numeral is made of digits, marks of a base and a suffix. -/
theorem digitValue_isSome : ∀ c ∈ n.text, (digitValue c).isSome = true := by
  intro c hc
  have hmark : (n.radix.mark.all fun c => (digitValue c).isSome) = true := by
    cases n.radix <;> decide
  rw [text, List.mem_append, List.mem_append] at hc
  rcases hc with hc | hc | hc
  · exact List.all_eq_true.1 hmark c hc
  · obtain ⟨d, hd, -⟩ := h.digits c hc
    exact Option.isSome_iff_exists.2 ⟨d, hd⟩
  · rcases h.suffix c (Option.mem_toList.1 hc) with rfl | rfl <;> decide

theorem isBlank_text : ∀ c ∈ n.text, isBlank c = false := by
  intro c hc
  obtain ⟨d, hd⟩ := Option.isSome_iff_exists.1 (h.digitValue_isSome c hc)
  exact isBlank_of_digitValue hd

theorem not_mem_text {c : Char} (hc : digitValue c = none) : c ∉ n.text := by
  intro hmem
  have hsome := h.digitValue_isSome c hmem
  rw [hc] at hsome
  cases hsome

/-- The suffix comes off, and no digit. -/
theorem unsuffixed : ((n.digits ++ n.suffix.toList).reverse.dropWhile
    fun c => c == 'u' || c == 'U').reverse = n.digits := by
  have hsuffix : ∀ c ∈ n.suffix.toList.reverse, (c == 'u' || c == 'U') = true := by
    intro c hc
    rcases h.suffix c (Option.mem_toList.1 (List.mem_reverse.1 hc)) with rfl | rfl <;> rfl
  rw [List.reverse_append, List.dropWhile_append_of_pos hsuffix, List.dropWhile_eq_self_iff.2,
    List.reverse_reverse]
  intro hlength hc
  have hmem := List.mem_reverse.1 (List.getElem_mem hlength)
  rw [Bool.or_eq_true, beq_iff_eq, beq_iff_eq] at hc
  rcases hc with hc | hc <;> rw [hc] at hmem
  · exact h.not_mem_digits (by decide) hmem
  · exact h.not_mem_digits (by decide) hmem

theorem readUnsigned_digits : readUnsigned n.radix.base maxWord n.digits =
    (some n.value).filter (· ≤ maxWord) := readUnsigned_eq_ofDigits h.digits h.nonempty maxWord

end Numeral.Proper

/-- **A numeral counts as its value**, or as zero if that is beyond a word. -/
theorem dimension_text (h : n.Proper) : dimension n.text = UInt32.ofNat n.counted := by
  have htrim : trim n.text = n.text := trim_of_fresh (fresh_of_forall h.isBlank_text)
    (fresh_of_forall fun c hc => h.isBlank_text c (List.mem_reverse.1 hc))
  have hcounted : ((some n.value).filter (· ≤ maxWord)).getD 0 = n.counted := by
    rw [Numeral.counted]
    by_cases hle : n.value ≤ maxWord <;> simp [Option.filter, hle]
  have hletter : ∀ c, (∀ d ∈ digitValue c, 16 ≤ d) → c ≠ 'u' → c ≠ 'U' →
      c ∉ n.digits ++ n.suffix.toList := by
    intro c hc hu hU hmem
    rcases List.mem_append.1 hmem with hmem | hmem
    · exact h.not_mem_digits hc hmem
    · rcases h.suffix c (Option.mem_toList.1 hmem) with rfl | rfl
      · exact hu rfl
      · exact hU rfl
  have hread := h.readUnsigned_digits
  have hdigits := h.unsuffixed
  rw [dimension, htrim, ← hcounted, ← hread]
  cases hradix : n.radix with
  | decimal =>
    have htext : n.text = n.digits ++ n.suffix.toList := by rw [Numeral.text, hradix]; rfl
    rw [htext]
    split
    · next hmark =>
      exact absurd (by rw [hmark]; simp) (hletter 'x' (by decide) (by decide) (by decide))
    · next hmark =>
      exact absurd (by rw [hmark]; simp) (hletter 'X' (by decide) (by decide) (by decide))
    · simp only [hdigits]
      rfl
  | hex =>
    have htext : n.text = '0' :: 'x' :: (n.digits ++ n.suffix.toList) := by
      rw [Numeral.text, hradix]; rfl
    simp only [htext, hdigits]
    rfl
  | hexCapital =>
    have htext : n.text = '0' :: 'X' :: (n.digits ++ n.suffix.toList) := by
      rw [Numeral.text, hradix]; rfl
    simp only [htext, hdigits]
    rfl

/-- A decimal numeral that a word can hold reads as the word. -/
theorem dimension_decimal (k : UInt32) : dimension (Text.decimal k.toNat) = k := by
  have hle : k.toNat ≤ maxWord := Nat.le_of_lt_succ k.toNat_lt
  rw [← Numeral.text_ofNat, dimension_text (Numeral.proper_ofNat _), Numeral.counted,
    Numeral.value_ofNat, if_pos hle, UInt32.ofNat_toNat]

end Numerals

/-! ## Brackets -/

/-- Texts in brackets, with the blanks before each. -/
def bracketText (ds : List (List Char × List Char)) : List Char :=
  ds.flatMap fun p => p.1 ++ '[' :: (p.2 ++ [']'])

/-- What is in the last brackets comes off the end. -/
theorem takeDimensions_last (found : List UInt32) {t : List Char} (ht : '[' ∉ t) (r : List Char) :
    takeDimensions found (('[' :: (t ++ [']'])).reverse ++ r) =
      takeDimensions (dimension t :: found) (dropBlanks r) := by
  have hopen : ∀ c ∈ t.reverse, (c != '[') = true := by
    intro c hc
    rw [bne_iff_ne]
    rintro rfl
    exact ht (List.mem_reverse.1 hc)
  have htext : ('[' :: (t ++ [']'])).reverse ++ r = ']' :: (t.reverse ++ '[' :: r) := by simp
  have hdrop : (t.reverse ++ '[' :: r).dropWhile (· != '[') = '[' :: r := by
    rw [List.dropWhile_append_of_pos hopen, List.dropWhile_cons_of_neg (by simp)]
  have htake : (t.reverse ++ '[' :: r).takeWhile (· != '[') = t.reverse := by
    rw [List.takeWhile_append_of_pos hopen, List.takeWhile_cons_of_neg (by simp), List.append_nil]
  rw [htext, takeDimensions_bracket hdrop, htake, List.reverse_reverse]

/-- **All brackets come off the end**, and nothing else, whatever is in them. -/
theorem takeDimensions_bracketText {ds : List (List Char × List Char)}
    (hds : ∀ p ∈ ds, (∀ c ∈ p.1, isBlank c = true) ∧ '[' ∉ p.2) {rest : List Char}
    (hrest : (dropBlanks rest).head? ≠ some ']') (found : List UInt32) :
    takeDimensions found (dropBlanks ((bracketText ds).reverse ++ rest)) =
      (ds.map (dimension ·.2) ++ found, dropBlanks rest) := by
  induction ds using List.reverseRecOn generalizing found with
  | nil => exact takeDimensions_of_ne hrest
  | append_singleton ds d ih =>
    obtain ⟨gap, t⟩ := d
    obtain ⟨hgap, ht⟩ := hds (gap, t) (by simp)
    have htext : (bracketText (ds ++ [(gap, t)])).reverse ++ rest =
        ('[' :: (t ++ [']'])).reverse ++ (gap.reverse ++ ((bracketText ds).reverse ++ rest)) := by
      simp [bracketText]
    have hletter : Fresh ((bracketText (ds ++ [(gap, t)])).reverse ++ rest) := by
      rw [htext]
      simp [Fresh, isBlank]
    rw [hletter.dropBlanks, htext, takeDimensions_last found ht, dropBlanks_reverse_append hgap,
      ih fun p hp => hds p (List.mem_append_left _ hp)]
    simp

end Declarator

end DeclGraph
