import Mathlib.Data.List.Basic
import Mathlib.Tactic.Common
import DeclGraph.Name.Spelling

/-!
# Canonical spelling as a rule for gaps

A text is a row of letters, some of which blanks follow. Canonical spelling keeps the letters and
decides on each gap: scope operators are found first, since they may need more than two letters to
be seen, and then a gap depends on the letters on both sides of it only.

* `spaced`, `written`: a text as letters with gaps, and back.
* `regap`: letters with their gaps settled by a rule.
* `collapse_eq`, `tightScopes_written`, `tightAround_written`: the steps of canonical spelling.
* `canonicalChars_eq`: **what canonical spelling makes of any text.**
-/

namespace DeclGraph.Name

open Text

/-! ## Letters and gaps -/

theorem isBlank_space : isBlank ' ' = true := by decide

theorem isBlank_colon : isBlank ':' = false := by decide

/-- Letters, each with whether a gap follows it. -/
abbrev Spaced := List (Char × Bool)

/-- The letters of a text, with the gaps that its blanks make between them. -/
def spaced : List Char → Spaced
  | [] => []
  | c :: r => if isBlank c then spaced r else (c, r.head?.any isBlank) :: spaced r

/-- Letters with one space for each gap. -/
def written : Spaced → List Char
  | [] => []
  | (c, gap) :: l => c :: (if gap then ' ' :: written l else written l)

/-- No letter is a blank. -/
def Lettered (l : Spaced) : Prop := ∀ p ∈ l, isBlank p.1 = false

/-- The first letter. -/
def firstLetter (l : Spaced) : Option Char := l.head?.map Prod.fst

/-- Letters with no gap after the last one. -/
def closed : Spaced → Spaced
  | [] => []
  | [(c, _)] => [(c, false)]
  | p :: q :: l => p :: closed (q :: l)

/-- Whether there is to be a gap between a letter and the next one, if there was one or not. -/
abbrev GapRule := Char → Option Char → Bool → Bool

/-- Letters with their gaps settled by a rule. -/
def regap (rule : GapRule) : Spaced → Spaced
  | [] => []
  | (c, gap) :: l => (c, rule c (firstLetter l) gap) :: regap rule l

section Letters

variable {l : Spaced} {c : Char} {gap : Bool} {s r : List Char}

theorem spaced_blank (hc : isBlank c = true) : spaced (c :: r) = spaced r := by
  rw [spaced, if_pos hc]

theorem spaced_letter (hc : isBlank c = false) :
    spaced (c :: r) = (c, r.head?.any isBlank) :: spaced r := by
  rw [spaced, if_neg (by simp [hc])]

theorem lettered_spaced (s : List Char) : Lettered (spaced s) := by
  induction s with
  | nil => exact fun _ h => by cases h
  | cons c r ih =>
    cases hc : isBlank c with
    | true => rwa [spaced_blank hc]
    | false =>
      rw [spaced_letter hc]
      exact List.forall_mem_cons.2 ⟨hc, ih⟩

theorem head?_written (l : Spaced) : (written l).head? = firstLetter l := by
  cases l <;> rfl

theorem Lettered.tail (h : Lettered ((c, gap) :: l)) : isBlank c = false ∧ Lettered l :=
  List.forall_mem_cons.1 h

theorem isBlank_of_firstLetter (h : Lettered l) (hc : firstLetter l = some c) :
    isBlank c = false := by
  obtain ⟨p, hp, rfl⟩ := Option.map_eq_some_iff.1 hc
  exact h p (List.mem_of_mem_head? hp)

theorem dropBlanks_written (h : Lettered l) : dropBlanks (written l) = written l := by
  cases l with
  | nil => rfl
  | cons p l =>
    obtain ⟨c, gap⟩ := p
    rw [written, dropBlanks_cons, if_neg (by simp [h.tail.1])]

theorem head?_written_any (h : Lettered l) : (written l).head?.any isBlank = false := by
  rw [head?_written]
  cases hc : firstLetter l with
  | none => rfl
  | some c => exact isBlank_of_firstLetter h hc

theorem spaced_written (h : Lettered l) : spaced (written l) = l := by
  induction l with
  | nil => rfl
  | cons p l ih =>
    obtain ⟨c, gap⟩ := p
    obtain ⟨hc, hl⟩ := h.tail
    rw [written, spaced_letter hc]
    cases gap with
    | true =>
      rw [if_pos rfl, spaced_blank isBlank_space, ih hl]
      rfl
    | false => rw [if_neg Bool.false_ne_true, ih hl, head?_written_any hl]

@[simp] theorem firstLetter_regap (rule : GapRule) (l : Spaced) :
    firstLetter (regap rule l) = firstLetter l := by
  cases l <;> rfl

theorem lettered_regap (rule : GapRule) (h : Lettered l) : Lettered (regap rule l) := by
  induction l with
  | nil => exact h
  | cons p l ih =>
    obtain ⟨c, gap⟩ := p
    exact List.forall_mem_cons.2 ⟨h.tail.1, ih h.tail.2⟩

/-- Settling gaps twice is settling them by one rule. -/
theorem regap_regap (rule rule' : GapRule) (l : Spaced) :
    regap rule' (regap rule l) = regap (fun c d gap => rule' c d (rule c d gap)) l := by
  induction l with
  | nil => rfl
  | cons p l ih => rw [regap, regap, regap, firstLetter_regap, ih]

theorem regap_congr {rule rule' : GapRule} (h : ∀ c d gap, rule c d gap = rule' c d gap)
    (l : Spaced) : regap rule l = regap rule' l := by
  have heq : rule = rule' := funext fun c => funext fun d => funext fun gap => h c d gap
  rw [heq]

/-- What follows in settled letters is settled itself. -/
theorem exists_regap_of_suffix {rule : GapRule} {m : Spaced} (h : m <:+ regap rule l) :
    ∃ k, k <:+ l ∧ m = regap rule k := by
  induction l with
  | nil => exact ⟨[], List.suffix_refl _, List.suffix_nil.1 h⟩
  | cons p l ih =>
    rw [regap] at h
    rcases List.suffix_cons_iff.1 h with heq | h
    · exact ⟨_, List.suffix_refl _, heq⟩
    · obtain ⟨k, hk, hm⟩ := ih h
      exact ⟨k, hk.trans (List.suffix_cons _ _), hm⟩

theorem firstLetter_closed (l : Spaced) : firstLetter (closed l) = firstLetter l := by
  rcases l with _ | ⟨p, _ | ⟨q, l⟩⟩ <;> rfl

theorem lettered_closed (h : Lettered l) : Lettered (closed l) := by
  induction l using closed.induct with
  | case1 => exact h
  | case2 c gap =>
    intro p hp
    obtain rfl := List.mem_singleton.1 hp
    exact h (c, gap) List.mem_cons_self
  | case3 p q l ih =>
    exact List.forall_mem_cons.2 ⟨h p List.mem_cons_self,
      ih fun p hp => h p (List.mem_cons_of_mem _ hp)⟩

theorem closed_eq_regap (l : Spaced) : closed l = regap (fun _ d gap => gap && d.isSome) l := by
  induction l using closed.induct with
  | case1 => rfl
  | case2 c gap => simp [closed, regap, firstLetter]
  | case3 p q l ih => rw [closed, ih]; simp [regap, firstLetter]

end Letters

/-! ## Outer blanks -/

section Outer

variable {l : Spaced} {c : Char} {s : List Char}

theorem trimEnd_cons (c : Char) (s : List Char) :
    trimEnd (c :: s) = if isBlank c && (trimEnd s).isEmpty then [] else c :: trimEnd s := by
  have happend : ∀ s : List Char, dropBlanks (s ++ [c]) =
      if (dropBlanks s).isEmpty then dropBlanks [c] else dropBlanks s ++ [c] := by
    intro s
    rw [dropBlanks, List.dropWhile_append]
    rfl
  rw [trimEnd, List.reverse_cons, happend, trimEnd]
  cases hs : dropBlanks s.reverse with
  | nil => cases hc : isBlank c <;> simp [dropBlanks_cons, hc]
  | cons d r => simp

theorem spaced_dropBlanks (s : List Char) : spaced (dropBlanks s) = spaced s := by
  induction s with
  | nil => rfl
  | cons c r ih =>
    rw [dropBlanks_cons]
    cases hc : isBlank c with
    | true => rw [if_pos rfl, ih, spaced_blank hc]
    | false => rw [if_neg Bool.false_ne_true]

theorem spaced_eq_nil_iff {s : List Char} : spaced s = [] ↔ trimEnd s = [] := by
  induction s with
  | nil => exact ⟨fun _ => rfl, fun _ => rfl⟩
  | cons c r ih =>
    rw [trimEnd_cons]
    cases hc : isBlank c with
    | true => rw [spaced_blank hc, ih]; simp
    | false => rw [spaced_letter hc]; simp

theorem spaced_trimEnd (s : List Char) : spaced (trimEnd s) = closed (spaced s) := by
  induction s with
  | nil => rfl
  | cons c r ih =>
    rw [trimEnd_cons]
    cases hc : isBlank c with
    | true =>
      rw [spaced_blank hc]
      by_cases hr : trimEnd r = []
      · rw [if_pos (by simp [hr]), spaced_eq_nil_iff.2 hr]
        rfl
      · rw [if_neg (by simp [hr]), spaced_blank hc, ih]
    | false =>
      rw [if_neg (by simp), spaced_letter hc, spaced_letter hc, ih]
      -- a gap is left if a letter follows
      cases hl : spaced r with
      | nil => rw [spaced_eq_nil_iff.1 hl]; rfl
      | cons q l =>
        have hsame : (trimEnd r).head? = r.head? := by
          cases r with
          | nil => rfl
          | cons d r =>
            have hne : ¬(isBlank d && (trimEnd r).isEmpty) = true := by
              rw [Bool.and_eq_true, List.isEmpty_iff]
              rintro ⟨hd, hr⟩
              rw [spaced_blank hd, spaced_eq_nil_iff.2 hr] at hl
              cases hl
            rw [trimEnd_cons, if_neg hne]
            rfl
        rw [hsame]
        rfl

theorem spaced_trim (s : List Char) : spaced (trim s) = closed (spaced s) := by
  rw [trim, spaced_trimEnd, spaced_dropBlanks]

theorem squeeze_eq (s : List Char) :
    squeeze s = (if s.head?.any isBlank then [' '] else []) ++ written (spaced s) := by
  induction s with
  | nil => rfl
  | cons c r ih =>
    cases hc : isBlank c with
    | true =>
      rw [spaced_blank hc, List.head?_cons, Option.any_some, hc, if_pos rfl]
      cases r with
      | nil => simp only [squeeze, hc, if_true]; rfl
      | cons d r =>
        rw [List.head?_cons, Option.any_some] at ih
        rw [squeeze, if_pos hc]
        -- the last of several blanks is the one that is kept
        cases hd : isBlank d with
        | true => rw [if_pos rfl, ih, hd, if_pos rfl]
        | false => rw [if_neg Bool.false_ne_true, ih, hd, if_neg Bool.false_ne_true]; rfl
    | false =>
      have hletter : squeeze (c :: r) = c :: squeeze r := by
        rw [squeeze.eq_def]
        exact if_neg (by simp [hc])
      rw [hletter, List.head?_cons, Option.any_some, hc, if_neg Bool.false_ne_true,
        spaced_letter hc, written, ih, List.nil_append]
      cases r.head?.any isBlank <;> rfl

theorem head?_trim (s : List Char) : (trim s).head?.any isBlank = false := by
  rw [trim]
  cases hs : dropBlanks s with
  | nil => rfl
  | cons c r =>
    have hc : isBlank c = false := by
      have hhead := List.head?_dropWhile_not isBlank s
      rw [dropBlanks] at hs
      rw [hs] at hhead
      simpa using hhead
    rw [trimEnd_cons, hc]
    simpa using hc

/-- Outer blanks go, and each gap is one space. -/
theorem collapse_eq (s : List Char) : collapse s = written (closed (spaced s)) := by
  rw [collapse, squeeze_eq, head?_trim, spaced_trim]
  rfl

end Outer

/-! ## The steps of canonical spelling -/

/-- No gap before a letter that is marked. -/
def beforeRule (mark : Char → Bool) : GapRule := fun _ d gap => gap && !d.any mark

/-- A gap after the letter `mark` or none, and none before it. -/
def aroundRule (mark : Char) (after : Bool) : GapRule := fun c d gap =>
  if c = mark then after else gap && d != some mark

/-- No gap next to a colon. -/
def scopeRule : GapRule := fun c d gap => gap && c != ':' && d != some ':'

/-- The gaps that the marks `<`, `>`, `,`, `*` and `&` decide on. -/
def markRule : GapRule := fun c d gap =>
  !d.any (fun d => d == '*' || d == '&') &&
    (c == ',' || gap && c != '<' && d != some '<' && d != some '>' && d != some ',')

/-- Whether letters start with a scope operator. -/
def startsScope : Spaced → Bool
  | (':', false) :: (':', _) :: _ => true
  | _ => false

/-- Letters without gaps around scope operators, which are found from the left. -/
def joined : Spaced → Spaced
  | [] => []
  | (':', false) :: (':', _) :: l => (':', false) :: (':', false) :: joined l
  | (c, gap) :: l => (c, gap && !startsScope l) :: joined l

section Steps

variable {l : Spaced} {c : Char} {gap : Bool}

theorem tightBefore_written (mark : Char → Bool) (h : Lettered l) :
    tightBefore mark (written l) = written (regap (beforeRule mark) l) := by
  induction l with
  | nil => rfl
  | cons p l ih =>
    obtain ⟨c, gap⟩ := p
    obtain ⟨hc, hl⟩ := h.tail
    have hrest := ih hl
    rw [tightBefore] at hrest ⊢
    have hhead : ∀ r : List Char, (if (isBlank c && r.head?.any mark) = true then r else c :: r) =
        c :: r := fun r => if_neg (by simp [hc])
    rw [written, List.foldr_cons, hhead, regap, written, beforeRule]
    cases gap with
    | false => simp only [Bool.false_eq_true, if_false, Bool.false_and, hrest]
    | true =>
      rw [if_pos rfl, List.foldr_cons, hrest, isBlank_space, head?_written, firstLetter_regap]
      cases (firstLetter l).any mark <;> rfl

theorem tightAround_written (mark : Char) (after : Bool) (hmark : isBlank mark = false)
    (h : Lettered l) : tightAround mark (mark :: if after then [' '] else []) (written l) =
      written (regap (aroundRule mark after) l) := by
  induction l with
  | nil => rfl
  | cons p l ih =>
    obtain ⟨c, gap⟩ := p
    obtain ⟨hc, hl⟩ := h.tail
    have hrest := ih hl
    rw [tightAround] at hrest ⊢
    have hspace : ' ' ≠ mark := by
      rintro rfl
      rw [isBlank_space] at hmark
      cases hmark
    have hdrop : dropBlanks (written (regap (aroundRule mark after) l)) =
        written (regap (aroundRule mark after) l) := dropBlanks_written (lettered_regap _ hl)
    have hfirst : (written (regap (aroundRule mark after) l)).head? = firstLetter l := by
      rw [head?_written, firstLetter_regap]
    rw [written, List.foldr_cons, regap, written, aroundRule]
    by_cases hcm : c = mark
    · subst hcm
      rw [if_pos rfl, if_pos rfl]
      -- the blanks after the mark go, whether the step before has kept them or not
      cases gap with
      | false =>
        rw [if_neg Bool.false_ne_true, hrest, hdrop]
        cases after <;> rfl
      | true =>
        have hblank : ∀ r : List Char, dropBlanks (' ' :: r) = dropBlanks r := fun r => by
          rw [dropBlanks_cons, if_pos isBlank_space]
        rw [if_pos rfl, List.foldr_cons, hrest, if_neg hspace, isBlank_space, Bool.true_and,
          apply_ite dropBlanks, hblank, ite_self, hdrop]
        cases after <;> rfl
    · rw [if_neg hcm, if_neg hcm, hc, Bool.false_and, if_neg Bool.false_ne_true]
      cases gap with
      | false => rw [if_neg Bool.false_ne_true, hrest]; rfl
      | true =>
        rw [if_pos rfl, List.foldr_cons, hrest, if_neg hspace, isBlank_space, Bool.true_and,
          Bool.true_and, hfirst]
        cases heq : firstLetter l == some mark with
        | true => simp [bne, heq]
        | false => simp [bne, heq]

theorem startsScope_eq (h : Lettered l) : [':', ':'].isPrefixOf (written l) = startsScope l := by
  rcases l with _ | ⟨⟨c, gap⟩, l⟩
  · rfl
  · have hspace : (':' == ' ') = false := by decide
    cases gap with
    | true =>
      rw [written, if_pos rfl, List.isPrefixOf, List.isPrefixOf, hspace]
      simp [startsScope]
    | false =>
      rw [written, if_neg Bool.false_ne_true]
      rcases l with _ | ⟨⟨d, gap⟩, l⟩
      · simp [written, startsScope, List.isPrefixOf]
      · rw [written]
        by_cases hc : c = ':'
        · by_cases hd : d = ':'
          · subst hc hd
            simp [startsScope, List.isPrefixOf]
          · subst hc
            simp [startsScope, List.isPrefixOf, hd, Ne.symm hd]
        · simp [startsScope, List.isPrefixOf, hc, Ne.symm hc]

/-- A character that does not start a scope operator. -/
theorem tightScopes_cons {fresh : Bool} {r : List Char}
    (h : ¬(c = ':' ∧ r.head? = some ':')) : tightScopes fresh (c :: r) =
      if isBlank c && (fresh || [':', ':'].isPrefixOf (dropBlanks r)) then tightScopes fresh r
      else c :: tightScopes false r := by
  rw [tightScopes]
  rintro r' rfl rfl
  exact h ⟨rfl, rfl⟩

theorem tightScopes_fresh {r : List Char} (h : r.head?.any isBlank = false) :
    tightScopes true r = tightScopes false r := by
  rcases r with _ | ⟨c, r⟩
  · rfl
  · by_cases hscope : c = ':' ∧ r.head? = some ':'
    · obtain ⟨rfl, hr⟩ := hscope
      obtain ⟨r', rfl⟩ := List.head?_eq_some_iff.1 hr
      rw [tightScopes, tightScopes]
    · have hc : isBlank c = false := h
      rw [tightScopes_cons hscope, tightScopes_cons hscope, hc]
      rfl

/-- A letter that does not start a scope operator. -/
theorem joined_cons (hnot : ∀ gap' l', l = (':', gap') :: l' → c = ':' → gap = false → False) :
    joined ((c, gap) :: l) = (c, gap && !startsScope l) :: joined l := by
  rw [joined]
  exact hnot

theorem tightScopes_written (h : Lettered l) :
    tightScopes false (written l) = written (joined l) := by
  induction l using joined.induct with
  | case1 => rfl
  | case2 gap l ih =>
    have hl : Lettered l := fun p hp => h p (by simp [hp])
    rw [joined, written, written, written, written, if_neg Bool.false_ne_true,
      if_neg Bool.false_ne_true, if_neg Bool.false_ne_true, tightScopes, ← ih hl]
    congr 2
    cases gap with
    | false => rw [if_neg Bool.false_ne_true, tightScopes_fresh (head?_written_any hl)]
    | true =>
      have hnot : ¬(' ' = ':' ∧ (written l).head? = some ':') := by
        rintro ⟨hspace, -⟩
        cases hspace
      rw [if_pos rfl, tightScopes_cons hnot, isBlank_space]
      exact tightScopes_fresh (head?_written_any hl)
  | case3 c gap l hnot ih =>
    obtain ⟨hc, hl⟩ := h.tail
    have hrest := ih hl
    rw [joined_cons hnot, written, written, ← hrest]
    cases gap with
    | false =>
      have hscope : ¬(c = ':' ∧ (written l).head? = some ':') := by
        rintro ⟨rfl, hr⟩
        rw [head?_written] at hr
        obtain ⟨⟨d, gap⟩, hp, rfl⟩ := Option.map_eq_some_iff.1 hr
        obtain ⟨l', rfl⟩ := List.head?_eq_some_iff.1 hp
        exact hnot gap l' rfl rfl rfl
      rw [if_neg Bool.false_ne_true, tightScopes_cons hscope, hc]
      rfl
    | true =>
      have hscope : ¬(c = ':' ∧ (' ' :: written l).head? = some ':') := by
        rintro ⟨-, hspace⟩
        cases hspace
      have hspace : ¬(' ' = ':' ∧ (written l).head? = some ':') := by
        rintro ⟨hspace, -⟩
        cases hspace
      rw [if_pos rfl, tightScopes_cons hscope, hc, Bool.false_and, if_neg Bool.false_ne_true,
        tightScopes_cons hspace, isBlank_space, dropBlanks_written hl, startsScope_eq hl]
      cases startsScope l <;> rfl

theorem lettered_joined (h : Lettered l) : Lettered (joined l) := by
  induction l using joined.induct with
  | case1 => exact h
  | case2 gap l ih =>
    have hl := ih fun p hp => h p (by simp [hp])
    rw [joined]
    exact List.forall_mem_cons.2 ⟨isBlank_colon, List.forall_mem_cons.2 ⟨isBlank_colon, hl⟩⟩
  | case3 c gap l hnot ih =>
    obtain ⟨hc, hl⟩ := h.tail
    rw [joined_cons hnot]
    exact List.forall_mem_cons.2 ⟨hc, ih hl⟩

theorem lettered_canonical (s : List Char) :
    Lettered (regap markRule (joined (closed (spaced s)))) :=
  lettered_regap _ (lettered_joined (lettered_closed (lettered_spaced s)))

/-- The marks one after another. -/
theorem markRule_eq (c : Char) (d : Option Char) (gap : Bool) :
    beforeRule (fun c => c == '*' || c == '&') c d (aroundRule ',' true c d
      (beforeRule (· == '>') c d (aroundRule '<' false c d gap))) = markRule c d gap := by
  simp only [markRule, beforeRule, aroundRule]
  by_cases hc : c = ','
  · subst hc
    simp
  · have hlist : (c == ',') = false := beq_false_of_ne hc
    by_cases hopen : c = '<'
    · subst hopen
      simp [bne, hlist]
    · have hne : (c == '<') = false := beq_false_of_ne hopen
      cases d with
      | none => simp [bne, hc, hopen, hlist, hne]
      | some d =>
        simp only [if_neg hc, if_neg hopen, hlist, hne, bne, Option.any_some,
          Option.some_beq_some, Bool.not_false, Bool.and_true, Bool.false_or]
        rw [Bool.and_comm]

/-- **Canonical spelling of any text**: gaps around scope operators go, and the other marks decide
on the gaps next to them. -/
theorem canonicalChars_eq (s : List Char) :
    canonicalChars s = written (regap markRule (joined (closed (spaced s)))) := by
  have h₀ := lettered_joined (lettered_closed (lettered_spaced s))
  have h₁ := lettered_regap (aroundRule '<' false) h₀
  have h₂ := lettered_regap (beforeRule (· == '>')) h₁
  have h₃ := lettered_regap (aroundRule ',' true) h₂
  have hopened := tightAround_written '<' false (by decide) h₀
  have hlisted := tightAround_written ',' true (by decide) h₂
  rw [if_neg Bool.false_ne_true] at hopened
  rw [if_pos rfl] at hlisted
  rw [canonicalChars, collapse_eq, tightScopes_written (lettered_closed (lettered_spaced s)),
    hopened, tightBefore_written _ h₁, hlisted, tightBefore_written _ h₃, regap_regap,
    regap_regap, regap_regap]
  exact congrArg written (regap_congr markRule_eq _)

end Steps

end DeclGraph.Name
