import Mathlib.Data.List.Basic
import Mathlib.Tactic.Common
import DeclGraph.Name.Scope
import DeclGraph.Proofs.Spacing

/-!
# Texts in which colons are scope operators

In a text whose colons all belong to scope operators, the gaps around these are a matter of
neighbouring letters, as all other gaps are. That makes canonical spelling a rule for gaps, which
can be applied to a part of a text, or again.

* `onlyScopes`: the texts in question.
* `canonicalChars_of_onlyScopes`: **in those, each gap depends on its two letters.**
* `canonicalChars_tail`: what stands at the end of a canonical text is canonical itself.
* `letters_canonicalChars`: canonical spelling keeps the letters.
* `canonicalChars_scope`: a name inside a namespace is spelled as the two are.
* `relative_cases`: a name is absolute, or relative to any scope as it stands.
-/

namespace DeclGraph.Name

open Text

/-! ## Texts in which a colon is part of one scope operator -/

/-- Each colon belongs to one scope operator, and no two of these stand next to each other. -/
def onlyScopes : List Char → Bool
  | [] => true
  | ':' :: ':' :: r => (dropBlanks r).head? != some ':' && onlyScopes r
  | c :: r => c != ':' && onlyScopes r

/-- The same of letters. -/
def scopesApart : Spaced → Bool
  | [] => true
  | (':', false) :: (':', _) :: l => firstLetter l != some ':' && scopesApart l
  | (c, _) :: l => c != ':' && scopesApart l

/-- The gaps that all marks decide on, if scope operators stand apart. -/
def canonicalRule : GapRule := fun c d gap => markRule c d (scopeRule c d gap)

section Scopes

variable {l : Spaced} {c : Char} {gap : Bool} {s r p q : List Char}

theorem scopesApart_letter (hc : c ≠ ':') : scopesApart ((c, gap) :: l) = scopesApart l := by
  rw [scopesApart]
  · simp [hc]
  · intro _ _ _ hcolon
    exact absurd hcolon hc

theorem scopesApart_colon : scopesApart ((':', gap) :: l) = true ↔
    gap = false ∧ ∃ gap' l', l = (':', gap') :: l' ∧ firstLetter l' ≠ some ':' ∧
      scopesApart l' = true := by
  constructor
  · intro h
    cases gap with
    | true => simp [scopesApart] at h
    | false =>
      rcases l with _ | ⟨⟨d, gap'⟩, l'⟩
      · simp [scopesApart] at h
      · by_cases hd : d = ':'
        · subst hd
          rw [scopesApart, Bool.and_eq_true, bne_iff_ne] at h
          exact ⟨rfl, gap', l', rfl, h⟩
        · simp [scopesApart, hd] at h
  · rintro ⟨rfl, gap', l', rfl, hfirst, hl'⟩
    rw [scopesApart, Bool.and_eq_true, bne_iff_ne]
    exact ⟨hfirst, hl'⟩

theorem ne_colon_of_scopesApart
    (hnot : ∀ gap' l', l = (':', gap') :: l' → c = ':' → gap = false → False)
    (h : scopesApart ((c, gap) :: l) = true) : c ≠ ':' := by
  rintro rfl
  obtain ⟨rfl, gap', l', rfl, -⟩ := scopesApart_colon.1 h
  exact hnot gap' l' rfl rfl rfl

theorem firstLetter_spaced (s : List Char) : firstLetter (spaced s) = (dropBlanks s).head? := by
  induction s with
  | nil => rfl
  | cons c r ih =>
    rw [dropBlanks_cons]
    cases hc : isBlank c with
    | true => rw [if_pos rfl, spaced_blank hc, ih]
    | false => rw [if_neg Bool.false_ne_true, spaced_letter hc]; rfl

theorem onlyScopes_eq (s : List Char) : onlyScopes s = scopesApart (spaced s) := by
  have hcolon := isBlank_colon
  induction s using onlyScopes.induct with
  | case1 => rfl
  | case2 r ih =>
    rw [onlyScopes, spaced_letter hcolon, spaced_letter hcolon, List.head?_cons, Option.any_some,
      hcolon, scopesApart, firstLetter_spaced, ih]
  | case3 c r hnot ih =>
    rw [onlyScopes, ih]
    · by_cases hc : c = ':'
      · subst hc
        rw [spaced_letter hcolon, bne_self_eq_false, Bool.false_and, eq_comm,
          Bool.eq_false_iff, ne_eq, scopesApart_colon]
        -- the letter after the colon would be the second colon of an operator
        rintro ⟨hgap, gap', l', hl', -⟩
        rcases r with _ | ⟨d, r⟩
        · cases hl'
        · rw [List.head?_cons, Option.any_some] at hgap
          rw [spaced_letter hgap, List.cons.injEq, Prod.mk.injEq] at hl'
          exact hnot r rfl (by rw [hl'.1.1])
      · have hne : (c != ':') = true := by simp [hc]
        rw [hne, Bool.true_and]
        cases hblank : isBlank c with
        | true => rw [spaced_blank hblank]
        | false => rw [spaced_letter hblank, scopesApart_letter hc]
    · exact hnot

/-- What stands before a character that is no colon. -/
theorem onlyScopes_prefix (h : onlyScopes (p ++ q) = true) (hq : q.head? ≠ some ':') :
    onlyScopes p = true := by
  induction p using onlyScopes.induct with
  | case1 => rfl
  | case2 r ih =>
    rw [List.cons_append, List.cons_append, onlyScopes, Bool.and_eq_true, bne_iff_ne] at h
    rw [onlyScopes, Bool.and_eq_true, bne_iff_ne]
    refine ⟨fun hr => h.1 ?_, ih h.2⟩
    obtain ⟨r', hr'⟩ := List.head?_eq_some_iff.1 hr
    have hne : ¬(dropBlanks r).isEmpty = true := by simp [hr']
    rw [dropBlanks] at hr' hne ⊢
    rw [List.dropWhile_append, if_neg hne, hr', List.cons_append, List.head?_cons]
  | case3 c r hnot ih =>
    have hnot' : ∀ r', c = ':' → r ++ q = ':' :: r' → False := by
      rintro r' rfl hr'
      rcases r with _ | ⟨d, r⟩
      · exact hq (by rw [← List.nil_append q, hr']; rfl)
      · exact hnot r rfl (by rw [(List.cons.inj hr').1])
    rw [List.cons_append, onlyScopes, Bool.and_eq_true] at h
    · rw [onlyScopes, Bool.and_eq_true]
      · exact ⟨h.1, ih h.2⟩
      · exact hnot
    · exact hnot'

/-- What stands after a character that is no colon. -/
theorem onlyScopes_suffix (h : onlyScopes (p ++ q) = true) (hp : p.getLast? ≠ some ':') :
    onlyScopes q = true := by
  induction p using onlyScopes.induct with
  | case1 => exact h
  | case2 r ih =>
    rw [List.cons_append, List.cons_append, onlyScopes, Bool.and_eq_true] at h
    cases r with
    | nil => exact absurd rfl hp
    | cons c r => exact ih h.2 (by simpa [List.getLast?_cons_cons] using hp)
  | case3 c r hnot ih =>
    cases r with
    | nil =>
      have hc : c ≠ ':' := fun hc => hp (by rw [hc]; rfl)
      rw [List.cons_append, List.nil_append, onlyScopes, Bool.and_eq_true] at h
      · exact h.2
      · exact fun _ hcolon _ => hc hcolon
    | cons d r =>
      rw [List.cons_append, onlyScopes, Bool.and_eq_true] at h
      · exact ih h.2 (by simpa [List.getLast?_cons_cons] using hp)
      · rintro r' rfl hr'
        exact hnot r rfl (by rw [(List.cons.inj hr').1])

theorem scopesApart_closed (h : scopesApart l = true) : scopesApart (closed l) = true := by
  induction l using scopesApart.induct with
  | case1 => rfl
  | case2 gap l ih =>
    rw [scopesApart, Bool.and_eq_true, bne_iff_ne] at h
    cases l with
    | nil => rfl
    | cons q l =>
      rw [closed, closed, scopesApart, firstLetter_closed, Bool.and_eq_true, bne_iff_ne]
      exact ⟨h.1, ih h.2⟩
  | case3 c gap l hnot ih =>
    have hc := ne_colon_of_scopesApart hnot h
    rw [scopesApart_letter hc] at h
    cases l with
    | nil => rw [closed, scopesApart_letter hc]; rfl
    | cons q l =>
      rw [closed, scopesApart_letter hc]
      exact ih h

@[simp] theorem firstLetter_joined (l : Spaced) : firstLetter (joined l) = firstLetter l := by
  induction l using joined.induct with
  | case1 => rfl
  | case2 => rfl
  | case3 c gap l hnot => rw [joined_cons hnot]; rfl

theorem scopesApart_joined (h : scopesApart l = true) : scopesApart (joined l) = true := by
  induction l using joined.induct with
  | case1 => rfl
  | case2 gap l ih =>
    rw [scopesApart, Bool.and_eq_true] at h
    rw [joined, scopesApart, firstLetter_joined, Bool.and_eq_true]
    exact ⟨h.1, ih h.2⟩
  | case3 c gap l hnot ih =>
    have hc := ne_colon_of_scopesApart hnot h
    rw [scopesApart_letter hc] at h
    rw [joined_cons hnot, scopesApart_letter hc]
    exact ih h

theorem startsScope_iff :
    startsScope l = true ↔ ∃ gap l', l = (':', false) :: (':', gap) :: l' := by
  constructor
  · intro h
    unfold startsScope at h
    split at h
    · exact ⟨_, _, rfl⟩
    · cases h
  · rintro ⟨gap, l', rfl⟩
    rfl

/-- With all colons in scope operators, the first colon is where a scope operator starts. -/
theorem startsScope_of_joined (h : scopesApart (joined l) = true) :
    startsScope l = (firstLetter l == some ':') := by
  rw [Bool.eq_iff_iff, startsScope_iff, beq_iff_eq]
  constructor
  · rintro ⟨gap, l', rfl⟩
    rfl
  · intro hfirst
    rcases l with _ | ⟨⟨c, gap⟩, l⟩
    · cases hfirst
    obtain rfl : c = ':' := Option.some.inj hfirst
    by_cases hscope : gap = false ∧ firstLetter l = some ':'
    · obtain ⟨rfl, hl⟩ := hscope
      rcases l with _ | ⟨⟨d, gap'⟩, l'⟩
      · cases hl
      · obtain rfl : d = ':' := Option.some.inj hl
        exact ⟨gap', l', rfl⟩
    · -- otherwise the second colon starts an operator, to which the first does not belong
      rw [joined, scopesApart_colon] at h
      · obtain ⟨hgap, gap', l', hl', hfirst', -⟩ := h
        have hl : firstLetter l = some ':' := by
          rw [← firstLetter_joined, hl']
          rfl
        have hstarts : startsScope l = true := by
          cases gap with
          | false => exact absurd ⟨rfl, hl⟩ hscope
          | true => simpa using hgap
        obtain ⟨gap'', l'', rfl⟩ := startsScope_iff.1 hstarts
        rw [joined, List.cons.injEq] at hl'
        exact absurd (by rw [← hl'.2]; rfl) hfirst'
      · rintro gap' l' rfl - rfl
        exact hscope ⟨rfl, rfl⟩

/-- With all colons in scope operators, gaps around these depend on the letters next to them. -/
theorem joined_eq_regap (h : scopesApart (joined l) = true) : joined l = regap scopeRule l := by
  induction l using joined.induct with
  | case1 => rfl
  | case2 gap l ih =>
    rw [joined, scopesApart, Bool.and_eq_true] at h
    rw [joined, ih h.2, regap, regap]
    simp [scopeRule]
  | case3 c gap l hnot ih =>
    have hc : c ≠ ':' := by
      rintro rfl
      have hstarts : startsScope ((':', gap) :: l) = true := startsScope_of_joined h
      obtain ⟨gap', l', heq⟩ := startsScope_iff.1 hstarts
      obtain ⟨hhead, hl⟩ := List.cons.inj heq
      exact hnot gap' l' hl rfl (Prod.mk.inj hhead).2
    rw [joined_cons hnot, scopesApart_letter hc] at h
    rw [joined_cons hnot, ih h, regap, startsScope_of_joined h, scopeRule, bne_iff_ne.2 hc,
      Bool.and_true]
    rfl

/-- **In a text with all colons in scope operators, each gap depends on its two letters.** -/
theorem canonicalChars_of_onlyScopes (h : onlyScopes s = true) :
    canonicalChars s = written (regap canonicalRule (closed (spaced s))) := by
  rw [onlyScopes_eq] at h
  rw [canonicalChars_eq, joined_eq_regap (scopesApart_joined (scopesApart_closed h)), regap_regap]
  rfl

end Scopes

/-! ## The end of a canonical text -/

section Tail

variable {l m : Spaced} {y s b : List Char}

theorem exists_written_of_suffix (h : Lettered l) (hs : s <:+ written l)
    (hhead : s.head?.any isBlank = false) : ∃ k, k <:+ l ∧ s = written k := by
  induction l with
  | nil => exact ⟨[], List.suffix_refl _, List.suffix_nil.1 hs⟩
  | cons p l ih =>
    obtain ⟨c, gap⟩ := p
    have hrest : s <:+ written l → ∃ k, k <:+ (c, gap) :: l ∧ s = written k := fun hs => by
      obtain ⟨k, hk, heq⟩ := ih h.tail.2 hs
      exact ⟨k, hk.trans (List.suffix_cons _ _), heq⟩
    rw [written] at hs
    rcases List.suffix_cons_iff.1 hs with heq | hs
    · exact ⟨_, List.suffix_refl _, heq⟩
    · cases gap with
      | false => exact hrest hs
      | true =>
        rw [if_pos rfl] at hs
        rcases List.suffix_cons_iff.1 hs with rfl | hs
        · rw [List.head?_cons, Option.any_some, isBlank_space] at hhead
          cases hhead
        · exact hrest hs

theorem exists_joined_of_suffix (hm : m <:+ joined l) (hfirst : firstLetter m ≠ some ':') :
    ∃ k, m = joined k := by
  induction l using joined.induct with
  | case1 => exact ⟨[], List.suffix_nil.1 hm⟩
  | case2 gap l ih =>
    rw [joined] at hm
    rcases List.suffix_cons_iff.1 hm with rfl | hm
    · exact absurd rfl hfirst
    · rcases List.suffix_cons_iff.1 hm with rfl | hm
      · exact absurd rfl hfirst
      · exact ih hm
  | case3 c gap l hnot ih =>
    rw [joined_cons hnot] at hm
    rcases List.suffix_cons_iff.1 hm with rfl | hm
    · exact ⟨_, (joined_cons hnot).symm⟩
    · exact ih hm

theorem scopesApart_markRule (l : Spaced) : scopesApart (regap markRule l) = scopesApart l := by
  induction l using scopesApart.induct with
  | case1 => rfl
  | case2 gap l ih =>
    have hgap : markRule ':' (some ':') false = false := by decide
    rw [regap, regap, firstLetter, List.head?_cons, Option.map_some, hgap, scopesApart,
      firstLetter_regap, scopesApart, ih]
  | case3 c gap l hnot ih =>
    rw [regap]
    by_cases hc : c = ':'
    · subst hc
      -- a colon outside operators is seen in both
      have hfalse : scopesApart ((':', gap) :: l) = false := by
        rw [Bool.eq_false_iff, ne_eq, scopesApart_colon]
        rintro ⟨rfl, gap', l', rfl, -⟩
        exact hnot gap' l' rfl rfl rfl
      rw [hfalse, Bool.eq_false_iff, ne_eq, scopesApart_colon]
      rintro ⟨hgap, gap', l', hl', -⟩
      have hfirst : firstLetter l = some ':' := by
        rw [← firstLetter_regap markRule, hl']
        rfl
      rw [hfirst] at hgap
      rcases l with _ | ⟨⟨d, gap''⟩, l⟩
      · cases hfirst
      · obtain rfl : d = ':' := Option.some.inj hfirst
        cases gap with
        | false => exact hnot gap'' l rfl rfl rfl
        | true => exact absurd hgap (by decide)
    · rw [scopesApart_letter hc, scopesApart_letter hc, ih]

theorem scopeRule_again (c : Char) (d : Option Char) (gap : Bool) :
    scopeRule c d (scopeRule c d gap) = scopeRule c d gap := by
  simp only [scopeRule]
  cases gap <;> cases c != ':' <;> cases d != some ':' <;> rfl

/-- Marks decide again as they did. -/
theorem canonicalRule_markRule (c : Char) (d : Option Char) (gap : Bool) :
    canonicalRule c d (markRule c d gap) = canonicalRule c d gap := by
  simp only [canonicalRule, markRule, scopeRule]
  cases c == ',' with
  | true => simp only [Bool.true_or]
  | false =>
    simp only [Bool.false_or]
    cases d.any (fun d => d == '*' || d == '&') <;> cases gap <;> cases c != '<' <;>
      cases d != some '<' <;> cases d != some '>' <;> cases d != some ',' <;> simp

/-- **What stands at the end of a canonical text is canonical itself**, unless a scope operator is
cut by its start. -/
theorem canonicalChars_tail {p : List Char} (h : canonicalChars y = p ++ b) (htrim : trim b = b)
    (hscopes : onlyScopes b = true) (hhead : b.head? ≠ some ':') : canonicalChars b = b := by
  have hlettered := lettered_canonical y
  rw [canonicalChars_eq] at h
  have hblank : b.head?.any isBlank = false := by
    rw [← htrim]
    exact head?_trim b
  obtain ⟨m, hm, rfl⟩ := exists_written_of_suffix hlettered ⟨p, h.symm⟩ hblank
  obtain ⟨k, hk, rfl⟩ := exists_regap_of_suffix hm
  rw [head?_written, firstLetter_regap] at hhead
  obtain ⟨v, rfl⟩ := exists_joined_of_suffix hk hhead
  have hspaced : spaced (written (regap markRule (joined v))) = regap markRule (joined v) :=
    spaced_written fun e he => hlettered e (hm.subset he)
  have hclosed : closed (regap markRule (joined v)) = regap markRule (joined v) := by
    rw [← hspaced, ← spaced_trim, htrim]
  rw [onlyScopes_eq, hspaced, scopesApart_markRule] at hscopes
  rw [canonicalChars_of_onlyScopes (by rw [onlyScopes_eq, hspaced, scopesApart_markRule, hscopes]),
    hspaced, hclosed, regap_regap, regap_congr canonicalRule_markRule]
  -- the gaps around scope operators have gone before
  have hscope : regap scopeRule (joined v) = joined v := by
    rw [joined_eq_regap hscopes, regap_regap]
    exact regap_congr scopeRule_again v
  have hsplit : regap canonicalRule (joined v) = regap markRule (regap scopeRule (joined v)) :=
    (regap_regap scopeRule markRule (joined v)).symm
  rw [hsplit, hscope]

end Tail

/-! ## Letters of a canonical text -/

section Marks

variable {l : Spaced} {s : List Char} {c : Char}

theorem map_fst_regap (rule : GapRule) (l : Spaced) :
    (regap rule l).map Prod.fst = l.map Prod.fst := by
  induction l with
  | nil => rfl
  | cons p l ih => rw [regap, List.map_cons, List.map_cons, ih]

theorem map_fst_joined (l : Spaced) : (joined l).map Prod.fst = l.map Prod.fst := by
  induction l using joined.induct with
  | case1 => rfl
  | case2 gap l ih =>
    rw [joined, List.map_cons, List.map_cons, List.map_cons, List.map_cons, ih]
  | case3 c gap l hnot ih =>
    rw [joined_cons hnot, List.map_cons, List.map_cons, ih]

theorem map_fst_spaced (s : List Char) : (spaced s).map Prod.fst = s.filter (!isBlank ·) := by
  induction s with
  | nil => rfl
  | cons c r ih =>
    cases hc : isBlank c with
    | true => rw [spaced_blank hc, ih, List.filter_cons_of_neg (by simp [hc])]
    | false => rw [spaced_letter hc, List.map_cons, ih, List.filter_cons_of_pos (by simp [hc])]

/-- What is written is the letters, and spaces. -/
theorem mem_written : c ∈ written l → c = ' ' ∨ c ∈ l.map Prod.fst := by
  induction l with
  | nil => exact fun h => by cases h
  | cons p l ih =>
    obtain ⟨d, gap⟩ := p
    intro h
    rw [written, List.mem_cons] at h
    rw [List.map_cons, List.mem_cons]
    rcases h with rfl | h
    · exact .inr (.inl rfl)
    · cases gap with
      | false => exact (ih h).imp_right .inr
      | true =>
        rcases List.mem_cons.1 h with hspace | h
        · exact .inl hspace
        · exact (ih h).imp_right .inr

theorem mem_written_of_letter (h : c ∈ l.map Prod.fst) : c ∈ written l := by
  induction l with
  | nil => cases h
  | cons p l ih =>
    obtain ⟨d, gap⟩ := p
    rw [List.map_cons, List.mem_cons] at h
    rw [written]
    rcases h with rfl | h
    · exact List.mem_cons_self
    · refine List.mem_cons_of_mem _ ?_
      cases gap with
      | false => exact ih h
      | true => exact List.mem_cons_of_mem _ (ih h)

/-- The letters of a canonical text are those of the text. -/
theorem letters_canonicalChars (s : List Char) :
    (regap markRule (joined (closed (spaced s)))).map Prod.fst = s.filter (!isBlank ·) := by
  rw [map_fst_regap, map_fst_joined, closed_eq_regap, map_fst_regap, map_fst_spaced]

theorem mem_of_mem_canonicalChars (hc : isBlank c = false) (h : c ∈ canonicalChars s) : c ∈ s := by
  rw [canonicalChars_eq] at h
  rcases mem_written h with rfl | h
  · rw [isBlank_space] at hc
    cases hc
  · rw [letters_canonicalChars] at h
    exact List.mem_of_mem_filter h

/-- A letter that settles no gap. -/
def isPlain (c : Char) : Bool :=
  !(c == ':' || c == '<' || c == '>' || c == ',' || c == '*' || c == '&')

theorem joined_of_plain (h : ∀ p ∈ l, isPlain p.1 = true) : joined l = l := by
  induction l using joined.induct with
  | case1 => rfl
  | case2 gap l ih => exact absurd (h (':', false) List.mem_cons_self) (by decide)
  | case3 c gap l hnot ih =>
    rw [List.forall_mem_cons] at h
    have hstarts : startsScope l = false := by
      rw [Bool.eq_false_iff, ne_eq, startsScope_iff]
      rintro ⟨gap', l', rfl⟩
      exact absurd (h.2 (':', false) List.mem_cons_self) (by decide)
    rw [joined_cons hnot, ih h.2, hstarts, Bool.not_false, Bool.and_true]

theorem regap_markRule_of_plain (h : ∀ p ∈ l, isPlain p.1 = true) : regap markRule l = l := by
  induction l with
  | nil => rfl
  | cons p l ih =>
    obtain ⟨c, gap⟩ := p
    rw [List.forall_mem_cons] at h
    have hrule : markRule c (firstLetter l) gap = gap := by
      have hc := h.1
      simp only [isPlain, Bool.not_eq_true', Bool.or_eq_false_iff] at hc
      obtain ⟨⟨⟨⟨⟨-, hopen⟩, -⟩, hlist⟩, -⟩, -⟩ := hc
      rcases l with _ | ⟨⟨d, gap'⟩, l⟩
      · simp [markRule, firstLetter, bne, hlist, hopen]
      · have hd := h.2 (d, gap') List.mem_cons_self
        simp only [isPlain, Bool.not_eq_true', Bool.or_eq_false_iff] at hd
        obtain ⟨⟨⟨⟨⟨-, hopen'⟩, hclose'⟩, hlist'⟩, hstar'⟩, hand'⟩ := hd
        simp [markRule, firstLetter, bne, hlist, hopen, hopen', hclose', hlist', hstar', hand']
    rw [regap, hrule, ih h.2]

/-- A text without marks is canonical if its gaps are single spaces. -/
theorem collapse_of_plain (h : ∀ c ∈ canonicalChars s, isPlain c = true) :
    collapse s = canonicalChars s := by
  rw [canonicalChars_eq] at h ⊢
  have hplain : ∀ p ∈ closed (spaced s), isPlain p.1 = true := by
    intro p hp
    refine h p.1 (mem_written_of_letter ?_)
    rw [map_fst_regap, map_fst_joined]
    exact List.mem_map_of_mem hp
  rw [collapse_eq, joined_of_plain hplain, regap_markRule_of_plain hplain]

theorem canonicalChars_collapse (s : List Char) :
    canonicalChars (collapse s) = canonicalChars s := by
  have hclosed : closed (closed (spaced s)) = closed (spaced s) := by
    rw [closed_eq_regap, closed_eq_regap, regap_regap]
    refine regap_congr (fun c d gap => ?_) _
    rw [Bool.and_assoc, Bool.and_self]
  rw [canonicalChars_eq, canonicalChars_eq, collapse_eq,
    spaced_written (lettered_closed (lettered_spaced s)), hclosed]

end Marks

/-! ## A name inside a namespace -/

section Inside

variable {l m : Spaced} {s p q : List Char} {c : Char} {gap : Bool}

theorem spaced_append (p : List Char) (hhead : q.head?.any isBlank = false) :
    spaced (p ++ q) = spaced p ++ spaced q := by
  induction p with
  | nil => rfl
  | cons c r ih =>
    rw [List.cons_append]
    cases hc : isBlank c with
    | true => rw [spaced_blank hc, spaced_blank hc, ih]
    | false =>
      rw [spaced_letter hc, spaced_letter hc, ih, List.cons_append]
      cases r with
      | nil => rw [List.nil_append, hhead]; rfl
      | cons d r => rfl

theorem written_append (l m : Spaced) : written (l ++ m) = written l ++ written m := by
  induction l with
  | nil => rfl
  | cons p l ih =>
    obtain ⟨c, gap⟩ := p
    rw [List.cons_append, written, written, ih]
    cases gap <;> rfl

theorem closed_cons (hl : l ≠ []) : closed ((c, gap) :: l) = (c, gap) :: closed l := by
  cases l with
  | nil => exact absurd rfl hl
  | cons q l => rfl

theorem closed_cons_false (c : Char) (l : Spaced) :
    closed ((c, false) :: l) = (c, false) :: closed l := by
  cases l <;> rfl

theorem closed_append (l : Spaced) (hm : m ≠ []) : closed (l ++ m) = l ++ closed m := by
  induction l with
  | nil => rfl
  | cons p l ih =>
    rw [List.cons_append, closed_cons (by simp [hm]), ih, List.cons_append]

/-- Letters in front of others, if their last gap does not depend on what follows. -/
theorem regap_append {rule : GapRule} (l : Spaced)
    (h : ∀ c gap, rule c (firstLetter m) gap = rule c none gap) :
    regap rule (l ++ m) = regap rule l ++ regap rule m := by
  induction l with
  | nil => rfl
  | cons p l ih =>
    obtain ⟨c, gap⟩ := p
    rw [List.cons_append, regap, regap, ih, List.cons_append]
    cases l with
    | nil => rw [List.nil_append, h]; rfl
    | cons q l => rfl

theorem startsScope_append (m : Spaced) (h : scopesApart l = true) (hl : l ≠ []) :
    startsScope (l ++ m) = startsScope l := by
  rcases l with _ | ⟨⟨c, gap⟩, l⟩
  · exact absurd rfl hl
  by_cases hc : c = ':'
  · subst hc
    obtain ⟨rfl, gap', l', rfl, -⟩ := scopesApart_colon.1 h
    rfl
  · have hfalse : ∀ l : Spaced, startsScope ((c, gap) :: l) = false := by
      intro l
      rw [Bool.eq_false_iff, ne_eq, startsScope_iff]
      rintro ⟨gap', l', heq⟩
      exact hc (Prod.mk.inj (List.cons.inj heq).1).1
    rw [List.cons_append, hfalse, hfalse]

/-- Letters in front of a scope operator lose the last gap. -/
theorem joined_append (hl : scopesApart l = true) (hm : startsScope m = true) :
    joined (l ++ m) = joined (closed l) ++ joined m := by
  induction l using joined.induct with
  | case1 => rfl
  | case2 gap l ih =>
    rw [scopesApart, Bool.and_eq_true] at hl
    rw [List.cons_append, List.cons_append, joined, ih hl.2, closed_cons_false]
    cases l with
    | nil => rfl
    | cons q l => rw [closed_cons (List.cons_ne_nil q l), joined]; rfl
  | case3 c gap l hnot ih =>
    have hc := ne_colon_of_scopesApart hnot hl
    have hjoined : ∀ (gap : Bool) (l : Spaced),
        joined ((c, gap) :: l) = (c, gap && !startsScope l) :: joined l :=
      fun _ _ => joined_cons fun _ _ _ hcolon _ => hc hcolon
    rw [scopesApart_letter hc] at hl
    rw [List.cons_append, hjoined, ih hl]
    cases l with
    | nil =>
      have hlast : joined (closed [(c, gap)]) = [(c, false)] := hjoined false []
      rw [List.nil_append, hm, Bool.not_true, Bool.and_false, hlast]
      rfl
    | cons q l =>
      -- the first letter tells whether an operator starts, here as well as there
      have hstarts : startsScope (q :: l ++ m) = startsScope (closed (q :: l)) := by
        rw [startsScope_append m hl (List.cons_ne_nil q l),
          startsScope_of_joined (scopesApart_joined (scopesApart_closed hl)), firstLetter_closed,
          startsScope_of_joined (scopesApart_joined hl)]
      rw [hstarts, closed_cons (List.cons_ne_nil q l), hjoined, List.cons_append]

theorem canonicalChars_absolute {r : List Char} (h : onlyScopes (':' :: ':' :: r) = true)
    (hr : r.head?.any isBlank = false) :
    canonicalChars (':' :: ':' :: r) = ':' :: ':' :: canonicalChars r := by
  have hcolon := isBlank_colon
  have hrule : ∀ d, canonicalRule ':' d false = false := by
    intro d
    simp [canonicalRule, markRule, scopeRule]
  have htail : onlyScopes r = true := by
    rw [onlyScopes, Bool.and_eq_true] at h
    exact h.2
  rw [canonicalChars_of_onlyScopes h, canonicalChars_of_onlyScopes htail, spaced_letter hcolon,
    spaced_letter hcolon, List.head?_cons, Option.any_some, hcolon, hr, closed_cons_false,
    closed_cons_false, regap, regap, hrule, hrule]
  rfl

/-- **A name inside a namespace is spelled as the two are**, if the colons of the namespace are all
in scope operators. -/
theorem canonicalChars_scope (x : List Char) (hs : onlyScopes s = true) :
    canonicalChars (s ++ ':' :: ':' :: x) =
      canonicalChars s ++ canonicalChars (':' :: ':' :: x) := by
  have hcolon := isBlank_colon
  have hspaced :
      spaced (':' :: ':' :: x) = (':', false) :: (':', x.head?.any isBlank) :: spaced x := by
    rw [spaced_letter hcolon, spaced_letter hcolon, List.head?_cons, Option.any_some, hcolon]
  have hstarts : startsScope (closed (spaced (':' :: ':' :: x))) = true := by
    rw [hspaced, closed_cons_false]
    rcases spaced x with _ | ⟨q, l⟩ <;> rfl
  have hfirst : firstLetter (joined (closed (spaced (':' :: ':' :: x)))) = some ':' := by
    rw [firstLetter_joined, firstLetter_closed, hspaced]
    rfl
  have hclosed : closed (spaced s ++ spaced (':' :: ':' :: x)) =
      spaced s ++ closed (spaced (':' :: ':' :: x)) := closed_append _ (by simp [hspaced])
  rw [onlyScopes_eq] at hs
  have happend : spaced (s ++ ':' :: ':' :: x) = spaced s ++ spaced (':' :: ':' :: x) :=
    spaced_append s hcolon
  rw [canonicalChars_eq, canonicalChars_eq, canonicalChars_eq, happend, hclosed,
    joined_append hs hstarts, regap_append, written_append]
  -- a colon that follows decides on no gap
  intro c gap
  rw [hfirst, markRule, markRule]
  cases gap <;> cases c == ',' <;> cases c != '<' <;> rfl

/-- Canonical spelling leaves all colons in scope operators that stand apart. -/
theorem onlyScopes_canonicalChars (hs : onlyScopes s = true) :
    onlyScopes (canonicalChars s) = true := by
  rw [onlyScopes_eq] at hs ⊢
  rw [canonicalChars_eq, spaced_written (lettered_canonical s), scopesApart_markRule]
  exact scopesApart_joined (scopesApart_closed hs)

end Inside

/-! ## Absolute names -/

/-- A name is absolute, or relative to any scope as it stands. -/
theorem relative_cases (name : String) :
    (∃ r, name.toList = ':' :: ':' :: r ∧ (relative name).toList = r) ∧ isAbsolute name = true ∨
      isAbsolute name = false ∧ relative name = name := by
  rw [relative]
  cases hafter : after? [':', ':'] name.toList with
  | some r =>
    rw [after?, List.isPrefixOf?_eq_some_iff_append_eq] at hafter
    refine .inl ⟨⟨r, hafter.symm, String.toList_ofList⟩, ?_⟩
    rw [isAbsolute, List.isPrefixOf_iff_prefix]
    exact ⟨r, hafter⟩
  | none =>
    refine .inr ⟨?_, rfl⟩
    rw [isAbsolute, Bool.eq_false_iff, ne_eq, List.isPrefixOf_iff_prefix]
    rintro ⟨r, hr⟩
    rw [after?, List.isPrefixOf?_eq_some_iff_append_eq.2 hr] at hafter
    cases hafter

/-- A name that is not absolute is relative as it stands. -/
theorem relative_eq_self {name : String} (h : isAbsolute name = false) : relative name = name := by
  rcases relative_cases name with ⟨-, habsolute⟩ | ⟨-, hrelative⟩
  · rw [h] at habsolute
    cases habsolute
  · exact hrelative

end DeclGraph.Name
