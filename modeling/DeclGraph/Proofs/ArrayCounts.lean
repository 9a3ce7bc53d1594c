import Mathlib.Algebra.BigOperators.Ring.List
import DeclGraph.Proofs.Grammar
import DeclGraph.Proofs.Saturation

/-!
# How many elements an array has

The number of elements is the product of the dimensions, and a product that is beyond a word is
counted as the largest word. That is so of the product only: a single dimension that is beyond a
word counts as zero, and the array with it.

* `foldl_clampWord_mul`: saturating at each factor is saturating once.
* `Declarator.dimensions_indexed`: the dimensions that are read off an identifier with indices.
* `Declarator.arrayCount_indexed`: **the count that comes of them**, and when it is the product.
-/

namespace DeclGraph

open Text Name

/-- **Saturating at each factor is saturating once**, since a factor is zero or makes the product no
smaller. -/
theorem foldl_clampWord_mul (ks : List UInt32) (n : UInt32) :
    ks.foldl (fun n k => clampWord (n.toNat * k.toNat)) n =
      clampWord (n.toNat * (ks.map UInt32.toNat).prod) := by
  induction ks generalizing n with
  | nil =>
    have hle : n.toNat ≤ maxWord := Nat.le_of_lt_succ n.toNat_lt
    rw [List.foldl_nil, List.map_nil, List.prod_nil, Nat.mul_one, clampWord, Nat.min_eq_left hle,
      UInt32.ofNat_toNat]
  | cons k ks ih =>
    have hcut := AddressSpace.clamp_clamp_mul (n.toNat * k.toNat) (ks.map UInt32.toNat).prod
    rw [AddressSpace.clamp_words, AddressSpace.clamp_words, AddressSpace.clamp_words] at hcut
    rw [List.foldl_cons, ih, List.map_cons, List.prod_cons, toNat_clampWord, ← Nat.mul_assoc,
      clampWord, hcut, clampWord]

namespace Declarator

/-- An identifier: letters, marks, digits and connectors. -/
structure IsIdentifier (b : List Char) : Prop where
  nonempty : b ≠ []
  letters : ∀ c ∈ b, isWordChar c = true

/-- Whether a text is an identifier can be read off its characters. -/
theorem isIdentifier_iff {b : List Char} :
    IsIdentifier b ↔ (!b.isEmpty && b.all isWordChar) = true := by
  simp only [Bool.and_eq_true, Bool.not_eq_true', List.isEmpty_eq_false_iff, List.all_eq_true]
  exact ⟨fun h => ⟨h.nonempty, h.letters⟩, fun h => ⟨h.1, h.2⟩⟩

instance (b : List Char) : Decidable (IsIdentifier b) := decidable_of_iff _ isIdentifier_iff.symm

/-- Numerals in brackets, one after another. -/
def indexText (ds : List Numeral) : List Char := ds.flatMap fun d => '[' :: (d.text ++ [']'])

/-- An identifier with indices. -/
def indexed (b : List Char) (ds : List Numeral) : String := String.ofList (b ++ indexText ds)

theorem indexText_eq (ds : List Numeral) :
    indexText ds = bracketText (ds.map fun d => ([], d.text)) := by
  rw [indexText, bracketText, List.flatMap_map]
  rfl

section Counts

variable {b : List Char} {ds : List Numeral}

theorem IsIdentifier.not_mem (hb : IsIdentifier b) {c : Char} (hc : isWordChar c = false) :
    c ∉ b := by
  intro hmem
  rw [hb.letters c hmem] at hc
  cases hc

theorem IsIdentifier.isBlank_eq_false (hb : IsIdentifier b) : ∀ c ∈ b, isBlank c = false := by
  have hall : ∀ k ∈ blankCodes, isWordChar (Char.ofNat k) = false := by decide +kernel
  intro c hc
  rw [Bool.eq_false_iff]
  intro hblank
  have hword := hall _ (mem_blankCodes hblank)
  rw [Char.ofNat_toNat, hb.letters c hc] at hword
  cases hword

theorem not_mem_indexText (hds : ∀ d ∈ ds, d.Proper) {c : Char} (hc : digitValue c = none)
    (hopen : c ≠ '[') (hclose : c ≠ ']') : c ∉ indexText ds := by
  rw [indexText, List.mem_flatMap]
  rintro ⟨d, hd, hmem⟩
  rw [List.mem_cons, List.mem_append, List.mem_singleton] at hmem
  rcases hmem with hmem | hmem | hmem
  · exact hopen hmem
  · exact (hds d hd).not_mem_text hc hmem
  · exact hclose hmem

theorem counted_le (d : Numeral) : d.counted ≤ maxWord := by
  rw [Numeral.counted]
  split
  · assumption
  · exact Nat.zero_le _

/-- What each numeral counts as is a dimension. -/
theorem dimensions_indexed (hb : IsIdentifier b) (hds : ∀ d ∈ ds, d.Proper) :
    (parse (indexed b ds)).dimensions = ds.map (UInt32.ofNat ·.counted) := by
  have hgroup : '(' ∉ b ++ indexText ds := by
    rw [List.mem_append, not_or]
    exact ⟨hb.not_mem (by decide +kernel),
      not_mem_indexText hds (by decide) (by decide) (by decide)⟩
  have hplain : hasPointerGroup (trim (b ++ indexText ds)) = false :=
    hasPointerGroup_eq_false fun hmem => hgroup (mem_of_mem_trim hmem)
  have hfresh : Fresh (b ++ indexText ds) :=
    fresh_append (fresh_of_forall hb.isBlank_eq_false) hb.nonempty _
  have hlast : (dropBlanks b.reverse).head? ≠ some ']' := by
    intro hhead
    have hmem := (List.dropWhile_suffix isBlank).subset (List.mem_of_head? hhead)
    exact hb.not_mem (by decide +kernel) (List.mem_reverse.1 hmem)
  have hinner : ∀ p ∈ ds.map fun d => (([] : List Char), d.text),
      (∀ c ∈ p.1, isBlank c = true) ∧ '[' ∉ p.2 := by
    intro p hp
    obtain ⟨d, hd, rfl⟩ := List.mem_map.1 hp
    exact ⟨fun _ h => absurd h List.not_mem_nil,
      (hds d hd).not_mem_text (by decide)⟩
  have htrim : (trim (b ++ indexText ds)).reverse =
      dropBlanks ((bracketText (ds.map fun d => ([], d.text))).reverse ++ b.reverse) := by
    rw [trim, hfresh.dropBlanks, trimEnd, List.reverse_reverse, List.reverse_append, indexText_eq]
  rw [parse, indexed, String.toList_ofList]
  simp only [hplain, Bool.false_eq_true, if_false, htrim,
    takeDimensions_bracketText hinner hlast, List.append_nil, List.map_map]
  exact List.map_congr_left fun d hd => dimension_text (hds d hd)

/-- The array counts as the product of what its dimensions count as. -/
theorem arrayCount_eq_counted (hb : IsIdentifier b) (hne : ds ≠ []) (hds : ∀ d ∈ ds, d.Proper) :
    (parse (indexed b ds)).arrayCount = some (clampWord (ds.map Numeral.counted).prod) := by
  have hdimensions := dimensions_indexed hb hds
  have hempty : (parse (indexed b ds)).dimensions.isEmpty = false := by
    rw [hdimensions, List.isEmpty_map]
    simpa using hne
  have hwords : (ds.map (UInt32.ofNat ·.counted)).map UInt32.toNat = ds.map Numeral.counted := by
    rw [List.map_map]
    refine List.map_congr_left fun d _ => ?_
    exact UInt32.toNat_ofNat_of_lt (Nat.lt_succ_of_le (counted_le d))
  rw [arrayCount, hempty, if_neg Bool.false_ne_true, hdimensions, foldl_clampWord_mul, hwords]
  simp

/-- **The number of elements**: what each dimension counts as multiplies, and the product saturates.
That is the product of the dimensions as they are written, saturating, exactly if none of them is
beyond a word or one of them is zero. -/
theorem arrayCount_indexed (hb : IsIdentifier b) (hne : ds ≠ []) (hds : ∀ d ∈ ds, d.Proper) :
    (parse (indexed b ds)).arrayCount = some (clampWord (ds.map Numeral.counted).prod) ∧
      ((parse (indexed b ds)).arrayCount = some (clampWord (ds.map Numeral.value).prod) ↔
        (∀ d ∈ ds, d.value ≤ maxWord) ∨ ∃ d ∈ ds, d.value = 0) := by
  have hcount := arrayCount_eq_counted hb hne hds
  refine ⟨hcount, ?_⟩
  rw [hcount, Option.some.injEq]
  have hzero : ∀ {f : Numeral → Nat}, (ds.map f).prod = 0 ↔ ∃ d ∈ ds, f d = 0 := by
    intro f
    rw [List.prod_eq_zero_iff, List.mem_map]
  constructor
  · intro heq
    by_contra hnot
    rw [not_or] at hnot
    obtain ⟨hbeyond, hnonzero⟩ := hnot
    push Not at hbeyond
    -- the numeral beyond a word makes one product zero, and nothing makes the other one zero
    obtain ⟨d, hd, hlt⟩ := hbeyond
    have hcounted : d.counted = 0 := if_neg (Nat.not_le.2 hlt)
    rw [hzero.2 ⟨d, hd, hcounted⟩] at heq
    have hwords := congrArg UInt32.toNat heq
    rw [toNat_clampWord, toNat_clampWord] at hwords
    have hpositive := Nat.pos_of_ne_zero (mt hzero.1 hnonzero)
    have hmax : 0 < maxWord := by decide
    omega
  · rintro (hfits | ⟨d, hd, hvalue⟩)
    · have hsame : ds.map Numeral.counted = ds.map Numeral.value :=
        List.map_congr_left fun d hd => if_pos (hfits d hd)
      rw [hsame]
    · have hcounted : d.counted = 0 := by
        rw [Numeral.counted, hvalue]
        rfl
      rw [hzero.2 ⟨d, hd, hvalue⟩, hzero.2 ⟨d, hd, hcounted⟩]

end Counts

/-- Bases, cases and suffixes mixed, with a product that is beyond a word though no dimension is. -/
theorem arrayCount_indexed_mixed :
    let ds : List Numeral := [{ radix := .hex, digits := ['1', '0', '0', '0', '0'], suffix := 'u' },
      { digits := ['0', '9'], suffix := 'U' },
      { radix := .hexCapital, digits := ['f', 'F', 'f', 'F'] }]
    indexed ['b', 'u', 'f'] ds = "buf[0x10000u][09U][0XfFfF]" ∧
      (parse (indexed ['b', 'u', 'f'] ds)).arrayCount = some 4294967295 := by
  intro ds
  have hb : IsIdentifier ['b', 'u', 'f'] := by decide +kernel
  have hds : ∀ d ∈ ds, d.Proper := by decide
  obtain ⟨-, hproduct⟩ := arrayCount_indexed hb (by decide) hds
  exact ⟨by decide, (hproduct.2 (.inl (by decide))).trans (by decide)⟩

/-- A dimension that is one beyond a word leaves no elements, where its product saturates. -/
theorem arrayCount_not_product :
    (Numeral.ofNat 4294967296).Proper ∧
      indexed ['i', 'n', 't'] [Numeral.ofNat 4294967296] = "int[4294967296]" ∧
      (parse "int[4294967296]").arrayCount = some 0 ∧
      clampWord ([Numeral.ofNat 4294967296].map Numeral.value).prod = 4294967295 := by
  have hvalue : (Numeral.ofNat 4294967296).value = 4294967296 := Numeral.value_ofNat _
  refine ⟨Numeral.proper_ofNat _, by decide, by decide +kernel, ?_⟩
  rw [List.map_singleton, List.prod_singleton, hvalue]
  decide

end Declarator

end DeclGraph
