import Mathlib.Data.List.Basic
import Mathlib.Tactic.Common
import DeclGraph.Proofs.Scopes

/-!
# Canonical texts

Where colons come in pairs, one rule settles every gap of a text, the last one included. A gap that
it has settled it settles in the same way again, so canonical spelling does nothing more to a
canonical text. Removing gaps can put scope operators next to each other, but it leaves the colons
in pairs.

* `paired`: the texts in question. `inPairs`: the same of letters.
* `joined_of_inPairs`: of such letters, gaps around scope operators depend on their neighbours.
* `canonicalChars_of_paired`: **canonical spelling is one rule for gaps.**
* `paired_canonicalChars`: it leaves colons in pairs.
* `canonical_canonical`: **canonical spelling is canonical.**
-/

namespace DeclGraph.Name

open Text

/-- Colons come in pairs: each run of them has an even length, as where they occur in runs of exactly
two. -/
def paired : List Char → Bool
  | [] => true
  | ':' :: ':' :: r => paired r
  | c :: r => c != ':' && paired r

/-- The same of letters. -/
def inPairs : Spaced → Bool
  | [] => true
  | (':', false) :: (':', _) :: l => inPairs l
  | (c, _) :: l => c != ':' && inPairs l

/-- The rule for all gaps: none is left at the end, and the marks decide on the others. -/
def settledRule : GapRule := fun c d gap => canonicalRule c d (gap && d.isSome)

section Pairs

variable {l : Spaced} {c : Char} {gap : Bool} {s : List Char} {rule : GapRule}

theorem inPairs_letter (hc : c ≠ ':') : inPairs ((c, gap) :: l) = inPairs l := by
  rw [inPairs]
  · simp [hc]
  · intro _ _ _ hcolon
    exact absurd hcolon hc

theorem inPairs_colon : inPairs ((':', gap) :: l) = true ↔
    gap = false ∧ ∃ gap' l', l = (':', gap') :: l' ∧ inPairs l' = true := by
  constructor
  · intro h
    rw [inPairs.eq_def] at h
    split at h
    · next heq => cases heq
    · next gap' l' heq =>
      obtain ⟨hhead, rfl⟩ := List.cons.inj heq
      exact ⟨(Prod.mk.inj hhead).2, gap', l', rfl, h⟩
    · next d gap' l' hnot heq =>
      obtain ⟨hhead, rfl⟩ := List.cons.inj heq
      obtain ⟨rfl, rfl⟩ := Prod.mk.inj hhead
      simp at h
  · rintro ⟨rfl, gap', l', rfl, hl'⟩
    exact hl'

theorem paired_eq (s : List Char) : paired s = inPairs (spaced s) := by
  have hcolon := isBlank_colon
  induction s using paired.induct with
  | case1 => rfl
  | case2 r ih =>
    rw [paired, spaced_letter hcolon, spaced_letter hcolon, List.head?_cons, Option.any_some,
      hcolon, inPairs, ih]
  | case3 c r hnot ih =>
    rw [paired, ih]
    · by_cases hc : c = ':'
      · subst hc
        rw [spaced_letter hcolon, bne_self_eq_false, Bool.false_and, eq_comm,
          Bool.eq_false_iff, ne_eq, inPairs_colon]
        -- the letter after the colon would be the second colon of a pair
        rintro ⟨hgap, gap', l', hl', -⟩
        rcases r with _ | ⟨d, r⟩
        · cases hl'
        · rw [List.head?_cons, Option.any_some] at hgap
          rw [spaced_letter hgap, List.cons.injEq, Prod.mk.injEq] at hl'
          exact hnot r rfl (by rw [hl'.1.1])
      · have hne : (c != ':') = true := by simp [hc]
        rw [hne, Bool.true_and]
        cases hblank : isBlank c with
        | true => rw [spaced_blank hblank]
        | false => rw [spaced_letter hblank, inPairs_letter hc]
    · exact hnot

theorem paired_of_onlyScopes (h : onlyScopes s = true) : paired s = true := by
  induction s using onlyScopes.induct with
  | case1 => rfl
  | case2 r ih =>
    rw [onlyScopes, Bool.and_eq_true] at h
    exact ih h.2
  | case3 c r hnot ih =>
    rw [onlyScopes, Bool.and_eq_true] at h
    · rw [paired, Bool.and_eq_true]
      · exact ⟨h.1, ih h.2⟩
      · exact hnot
    · exact hnot

/-- Of letters whose colons come in pairs, the first colon is where a scope operator starts. -/
theorem startsScope_of_inPairs (h : inPairs l = true) :
    startsScope l = (firstLetter l == some ':') := by
  rw [Bool.eq_iff_iff, startsScope_iff, beq_iff_eq]
  constructor
  · rintro ⟨gap, l', rfl⟩
    rfl
  · intro hfirst
    rcases l with _ | ⟨⟨c, gap⟩, l⟩
    · cases hfirst
    obtain rfl : c = ':' := Option.some.inj hfirst
    obtain ⟨rfl, gap', l', rfl, -⟩ := inPairs_colon.1 h
    exact ⟨gap', l', rfl⟩

/-- **Of such letters, the gaps around scope operators depend on the letters next to them.** -/
theorem joined_of_inPairs (h : inPairs l = true) : joined l = regap scopeRule l := by
  induction l using joined.induct with
  | case1 => rfl
  | case2 gap l ih =>
    rw [joined, ih h, regap, regap]
    simp [scopeRule]
  | case3 c gap l hnot ih =>
    have hc : c ≠ ':' := by
      rintro rfl
      obtain ⟨rfl, gap', l', rfl, -⟩ := inPairs_colon.1 h
      exact hnot gap' l' rfl rfl rfl
    rw [inPairs_letter hc] at h
    rw [joined_cons hnot, ih h, regap, startsScope_of_inPairs h, scopeRule, bne_iff_ne.2 hc,
      Bool.and_true]
    rfl

/-- A rule that makes no gap inside a scope operator leaves colons in pairs. -/
theorem inPairs_regap (hrule : rule ':' (some ':') false = false) (h : inPairs l = true) :
    inPairs (regap rule l) = true := by
  induction l using inPairs.induct with
  | case1 => rfl
  | case2 gap l ih =>
    rw [regap, regap, firstLetter, List.head?_cons, Option.map_some, hrule, inPairs]
    exact ih h
  | case3 c gap l hnot ih =>
    have hc : c ≠ ':' := by
      rintro rfl
      obtain ⟨rfl, gap', l', rfl, -⟩ := inPairs_colon.1 h
      exact hnot gap' l' rfl rfl rfl
    rw [inPairs_letter hc] at h
    rw [regap, inPairs_letter hc]
    exact ih h

/-- **Canonical spelling is one rule for gaps**, if colons come in pairs. -/
theorem canonicalChars_of_paired (h : paired s = true) :
    canonicalChars s = written (regap settledRule (spaced s)) := by
  rw [paired_eq] at h
  have hclosed : inPairs (closed (spaced s)) = true := by
    rw [closed_eq_regap]
    exact inPairs_regap rfl h
  rw [canonicalChars_eq, joined_of_inPairs hclosed, closed_eq_regap, regap_regap, regap_regap]
  rfl

theorem settledRule_again (c : Char) (d : Option Char) (gap : Bool) :
    settledRule c d (settledRule c d gap) = settledRule c d gap := by
  cases d with
  | none => simp only [settledRule, Option.isSome_none, Bool.and_false]
  | some d =>
    simp only [settledRule, Option.isSome_some, Bool.and_true]
    have hmark := canonicalRule_markRule c (some d) (scopeRule c (some d) gap)
    rw [canonicalRule, canonicalRule, scopeRule_again] at hmark
    exact hmark

theorem spaced_canonicalChars (h : paired s = true) :
    spaced (canonicalChars s) = regap settledRule (spaced s) := by
  rw [canonicalChars_of_paired h]
  exact spaced_written (lettered_regap _ (lettered_spaced s))

theorem paired_canonicalChars (h : paired s = true) : paired (canonicalChars s) = true := by
  rw [paired_eq, spaced_canonicalChars h]
  rw [paired_eq] at h
  exact inPairs_regap rfl h

/-- Gaps that are settled stay as they are. -/
theorem canonicalChars_canonicalChars (h : paired s = true) :
    canonicalChars (canonicalChars s) = canonicalChars s := by
  rw [canonicalChars_of_paired (paired_canonicalChars h), spaced_canonicalChars h, regap_regap,
    canonicalChars_of_paired h]
  exact congrArg written (regap_congr settledRule_again _)

end Pairs

/-- **Canonical spelling is canonical**, if colons come in pairs. -/
theorem canonical_canonical {s : String} (h : paired s.toList = true) :
    canonical (canonical s) = canonical s := by
  refine String.toList_inj.1 ?_
  rw [toList_canonical, toList_canonical]
  exact canonicalChars_canonicalChars h

/-- Operators meet, a comma stands in front of every mark, and one ends the text. -/
theorem canonical_canonical_crowded :
    paired "\u3000a :: ::b <\u00a0c , *d,>, ::e ,, < &f\t> * ,\n".toList = true ∧
      canonical "\u3000a :: ::b <\u00a0c , *d,>, ::e ,, < &f\t> * ,\n" =
        "a::::b<c,*d, >, ::e, , <&f>*, " ∧
      canonical "a::::b<c,*d, >, ::e, , <&f>*, " = "a::::b<c,*d, >, ::e, , <&f>*, " := by
  have hread : paired "\u3000a :: ::b <\u00a0c , *d,>, ::e ,, < &f\t> * ,\n".toList = true ∧
      canonical "\u3000a :: ::b <\u00a0c , *d,>, ::e ,, < &f\t> * ,\n" =
        "a::::b<c,*d, >, ::e, , <&f>*, " := by decide +kernel
  have hagain := canonical_canonical hread.1
  rw [hread.2] at hagain
  exact ⟨hread.1, hread.2, hagain⟩

end DeclGraph.Name
