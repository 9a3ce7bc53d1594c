import Mathlib.Data.List.Basic
import Mathlib.Data.List.TakeWhile
import Mathlib.Tactic.Common
import DeclGraph.Declarator
import DeclGraph.Proofs.Scopes

/-!
# Texts that are spelled alike

Between some letters canonical spelling settles whether a gap is there, whatever a text has.
Texts with one canonical spelling have the same letters, and gaps at the same places where these
are not settled. A declarator is taken apart letter by letter, so that two such texts come apart
at the same places:

* `Alike`: the relation of two texts, kept by each step of the parser and by reversal;
* `alike_iff`: it is equality of canonical spelling, if scope operators stand apart;
* `Declarator.canonicalBase_eq`: **texts with one canonical spelling have bases with one canonical
  spelling**, if they have the same leading words.

Leading words are an exception since `const::Foo` is a name and `const ::Foo` is not.
-/

namespace DeclGraph

namespace Name

open Text

/-! ## Settled gaps -/

/-- Whether canonical spelling decides on a gap between two letters. -/
def settled (c d : Char) : Bool :=
  c == ',' || c == '<' || c == ':' ||
    (d == '*' || d == '&' || d == '<' || d == '>' || d == ',' || d == ':')

/-- Gaps only where they are not settled, and none at the end. -/
def openRule (settled : Char → Char → Bool) : GapRule := fun c d gap => gap && d.any (!settled c ·)

/-- Texts with the same letters, and the same gaps where these are not settled. -/
def Alike (settled : Char → Char → Bool) (s s' : List Char) : Prop :=
  regap (openRule settled) (spaced s) = regap (openRule settled) (spaced s')

section Settled

variable {l l' : Spaced} {s s' : List Char} {c d : Char} {gap gap' : Bool}

theorem firstLetter_of_regap {rule : GapRule} (h : regap rule l = regap rule l') :
    firstLetter l = firstLetter l' := by
  rw [← firstLetter_regap rule, h, firstLetter_regap]

/-- Rules that leave the same gaps open tell the same letters apart. -/
theorem regap_eq_iff {rule rule' : GapRule}
    (h : ∀ c d, rule c d true = rule c d false ↔ rule' c d true = rule' c d false) :
    regap rule l = regap rule l' ↔ regap rule' l = regap rule' l' := by
  have hgap : ∀ c d gap gap', rule c d gap = rule c d gap' ↔ rule' c d gap = rule' c d gap' := by
    intro c d gap gap'
    cases gap <;> cases gap'
    · exact ⟨fun _ => rfl, fun _ => rfl⟩
    · rw [eq_comm, h, eq_comm]
    · exact h c d
    · exact ⟨fun _ => rfl, fun _ => rfl⟩
  induction l generalizing l' with
  | nil => cases l' <;> simp [regap]
  | cons p l ih =>
    rcases l' with _ | ⟨p', l'⟩
    · simp [regap]
    · obtain ⟨c, gap⟩ := p
      obtain ⟨c', gap'⟩ := p'
      simp only [regap, List.cons.injEq, Prod.mk.injEq, ih]
      constructor
      · rintro ⟨⟨rfl, heq⟩, hl⟩
        have hfirst := firstLetter_of_regap hl
        rw [hfirst, hgap] at heq
        exact ⟨⟨rfl, by rw [hfirst, heq]⟩, hl⟩
      · rintro ⟨⟨rfl, heq⟩, hl⟩
        have hfirst := firstLetter_of_regap hl
        rw [hfirst, ← hgap] at heq
        exact ⟨⟨rfl, by rw [hfirst, heq]⟩, hl⟩

/-- Canonical spelling leaves a gap open exactly between letters that do not settle it. -/
theorem canonicalRule_open (c d : Char) :
    canonicalRule c (some d) true = canonicalRule c (some d) false ↔ settled c d = true := by
  simp only [canonicalRule, markRule, scopeRule, settled, bne, Option.any_some,
    Option.some_beq_some]
  cases c == ',' <;> cases c == '<' <;> cases c == ':' <;> cases d == '*' <;> cases d == '&' <;>
    cases d == '<' <;> cases d == '>' <;> cases d == ',' <;> cases d == ':' <;> decide

/-- **Texts are alike exactly if they have one canonical spelling.** -/
theorem alike_iff (hs : onlyScopes s = true) (hs' : onlyScopes s' = true) :
    Alike settled s s' ↔ canonicalChars s = canonicalChars s' := by
  have hwritten : ∀ {l l' : Spaced}, Lettered l → Lettered l' → (written l = written l' ↔ l = l') :=
    fun h h' => ⟨fun heq => by rw [← spaced_written h, heq, spaced_written h'], congrArg _⟩
  have hlettered : ∀ s, Lettered (regap canonicalRule (closed (spaced s))) :=
    fun s => lettered_regap _ (lettered_closed (lettered_spaced s))
  rw [canonicalChars_of_onlyScopes hs, canonicalChars_of_onlyScopes hs',
    hwritten (hlettered s) (hlettered s'), closed_eq_regap, closed_eq_regap, regap_regap,
    regap_regap, Alike]
  refine regap_eq_iff fun c d => ?_
  cases d with
  | none => simp [openRule]
  | some d => simpa [openRule] using (canonicalRule_open c d).symm

end Settled

/-! ## Letter by letter -/

/-- A text that does not start with a blank. -/
def Fresh (s : List Char) : Prop := s.head?.any isBlank = false

/-- A text that does not end in a blank. -/
def EndsFresh (s : List Char) : Prop := s.getLast?.any isBlank = false

/-- Letters of which no two neighbours settle the gap between them. -/
def Solid (settled : Char → Char → Bool) (w : List Char) : Prop :=
  (∀ c ∈ w, isBlank c = false) ∧ w.IsChain fun c d => settled c d = false

instance (settled : Char → Char → Bool) (w : List Char) : Decidable (Solid settled w) :=
  @instDecidableAnd _ _ (List.decidableBAll _ w) inferInstance

section Steps

variable {settled : Char → Char → Bool} {s s' r r' p q w x : List Char} {c : Char}

theorem Fresh.cons (h : Fresh (c :: r)) : isBlank c = false := h

theorem fresh_dropWhile {p : Char → Bool} (hp : ∀ c, isBlank c = true → p c = true)
    (s : List Char) : Fresh (s.dropWhile p) := by
  cases hs : s.dropWhile p with
  | nil => rfl
  | cons c r =>
    have hc := List.head?_dropWhile_not p s
    rw [hs] at hc
    rw [Fresh, List.head?_cons, Option.any_some, Bool.eq_false_iff]
    intro hblank
    simp [hp c hblank] at hc

theorem fresh_dropBlanks (s : List Char) : Fresh (dropBlanks s) := fresh_dropWhile (fun _ h => h) s

theorem Fresh.dropBlanks (h : Fresh s) : dropBlanks s = s := by
  cases s with
  | nil => rfl
  | cons c r => rw [dropBlanks_cons, h.cons, if_neg Bool.false_ne_true]

theorem trim_of_fresh (hs : Fresh s) (hends : Fresh s.reverse) : trim s = s := by
  rw [trim, hs.dropBlanks, trimEnd, hends.dropBlanks, List.reverse_reverse]

theorem dropBlanks_append (hs : ∀ c ∈ s, isBlank c = true) : dropBlanks (s ++ r) = dropBlanks r :=
  List.dropWhile_append_of_pos hs

theorem dropBlanks_reverse_append (hs : ∀ c ∈ s, isBlank c = true) :
    dropBlanks (s.reverse ++ r) = dropBlanks r :=
  dropBlanks_append fun c hc => hs c (List.mem_reverse.1 hc)

theorem fresh_of_forall (hs : ∀ c ∈ s, isBlank c = false) : Fresh s := by
  rcases s with _ | ⟨c, s⟩
  · rfl
  · exact hs c List.mem_cons_self

theorem fresh_append (hs : Fresh s) (hne : s ≠ []) (r : List Char) : Fresh (s ++ r) := by
  rwa [Fresh, List.head?_append_of_ne_nil _ hne]

theorem EndsFresh.suffix (h : EndsFresh s) (hr : r <:+ s) : EndsFresh r := by
  obtain ⟨p, rfl⟩ := hr
  cases r with
  | nil => rfl
  | cons c r => rwa [EndsFresh, List.getLast?_append_of_ne_nil _ (List.cons_ne_nil _ _)] at h

theorem Alike.symm (h : Alike settled s s') : Alike settled s' s := Eq.symm h

theorem Alike.dropBlanks (h : Alike settled s s') :
    Alike settled (dropBlanks s) (dropBlanks s') := by
  rwa [Alike, spaced_dropBlanks, spaced_dropBlanks]

theorem EndsFresh.exists_letter (h : EndsFresh s) (hs : s ≠ []) :
    ∃ d, firstLetter (spaced s) = some d := by
  cases hl : spaced s with
  | nil =>
    rw [spaced_eq_nil_iff, trimEnd, List.reverse_eq_nil_iff, dropBlanks,
      List.dropWhile_eq_nil_iff] at hl
    have hlast := List.getLast?_eq_some_getLast hs
    have hblank := hl _ (List.mem_reverse.2 (List.getLast_mem hs))
    rw [EndsFresh, hlast, Option.any_some, hblank] at h
    cases h
  | cons p l => exact ⟨p.1, rfl⟩

/-- Alike texts start with the same letter. A gap after it is in both or in none, if not settled. -/
theorem Alike.cases (h : Alike settled s s') (hs : Fresh s) (hs' : Fresh s') :
    s = [] ∧ s' = [] ∨ ∃ c r r', s = c :: r ∧ s' = c :: r' ∧ Alike settled r r' ∧
      ∀ d, firstLetter (spaced r) = some d → settled c d = false →
        r.head?.any isBlank = r'.head?.any isBlank := by
  rcases s with _ | ⟨c, r⟩
  · rcases s' with _ | ⟨c', r'⟩
    · exact .inl ⟨rfl, rfl⟩
    · rw [Alike, spaced_letter hs'.cons] at h
      cases h
  · rcases s' with _ | ⟨c', r'⟩
    · rw [Alike, spaced_letter hs.cons] at h
      cases h
    · rw [Alike, spaced_letter hs.cons, spaced_letter hs'.cons, regap, regap, List.cons.injEq,
        Prod.mk.injEq] at h
      obtain ⟨⟨rfl, hgap⟩, hr⟩ := h
      have hfirst := firstLetter_of_regap hr
      refine .inr ⟨c, r, r', rfl, rfl, hr, fun d hd hopen => ?_⟩
      rw [← hfirst, hd] at hgap
      simpa [openRule, hopen] using hgap

theorem spaced_dropWhile {p : Char → Bool} (hp : ∀ c, isBlank c = true → p c = true)
    (s : List Char) : spaced (s.dropWhile p) = (spaced s).dropWhile (p ·.1) := by
  induction s with
  | nil => rfl
  | cons c r ih =>
    rw [List.dropWhile_cons]
    cases hc : isBlank c with
    | true => rw [if_pos (hp c hc), ih, spaced_blank hc]
    | false =>
      rw [spaced_letter hc, List.dropWhile_cons]
      split
      · exact ih
      · rw [spaced_letter hc]

theorem regap_dropWhile (rule : GapRule) (p : Char → Bool) (l : Spaced) :
    regap rule (l.dropWhile (p ·.1)) = (regap rule l).dropWhile (p ·.1) := by
  induction l with
  | nil => rfl
  | cons e l ih =>
    obtain ⟨c, gap⟩ := e
    rw [regap, List.dropWhile_cons, List.dropWhile_cons]
    split
    · exact ih
    · rfl

theorem Alike.dropWhile (h : Alike settled s s') {p : Char → Bool}
    (hp : ∀ c, isBlank c = true → p c = true) :
    Alike settled (s.dropWhile p) (s'.dropWhile p) := by
  rw [Alike, spaced_dropWhile hp, spaced_dropWhile hp, regap_dropWhile, regap_dropWhile, h]

/-- A word that has no settled gaps inside is found in both of two alike texts. -/
theorem Alike.after_word (hw : Solid settled w) (h : Alike settled (w ++ x) s')
    (hs : Fresh (w ++ x))
    (hs' : Fresh s') : ∃ x', s' = w ++ x' ∧ Alike settled x x' ∧
      ∀ a d, w.getLast? = some a → firstLetter (spaced x) = some d → settled a d = false →
        x.head?.any isBlank = x'.head?.any isBlank := by
  induction w generalizing s' with
  | nil => exact ⟨s', rfl, h, fun a d ha => by cases ha⟩
  | cons a w ih =>
    rcases h.cases hs hs' with ⟨hnil, -⟩ | ⟨c, r, r', heq, rfl, hr, hgap⟩
    · cases hnil
    rw [List.cons_append] at heq
    obtain ⟨rfl, rfl⟩ := List.cons.inj heq
    cases w with
    | nil =>
      refine ⟨r', rfl, hr, fun b d hb => ?_⟩
      obtain rfl : a = b := Option.some.inj hb
      exact hgap d
    | cons b w =>
      have hb : isBlank b = false := hw.1 b (by simp)
      have hfresh : Fresh (b :: w ++ x) := hb
      -- no gap is between the letters of the word, so none is in the other text
      have hfresh' : Fresh r' := by
        have hsame := hgap b (by rw [List.cons_append, spaced_letter hb]; rfl)
          (List.isChain_cons_cons.1 hw.2).1
        rw [Fresh, ← hsame]
        exact hb
      have hsolid : Solid settled (b :: w) :=
        ⟨fun c hc => hw.1 c (List.mem_cons_of_mem _ hc), (List.isChain_cons_cons.1 hw.2).2⟩
      obtain ⟨x', rfl, hx, hlast⟩ := ih hsolid hr hfresh hfresh'
      exact ⟨x', rfl, hx, fun c d hc => hlast c d (by rwa [List.getLast?_cons_cons] at hc)⟩

end Steps

/-! ## Backwards -/

/-- Letters in front of others in reverse, with the gap before each as the gap after it. -/
def turn (gap : Bool) (acc : Spaced) : Spaced → Spaced
  | [] => acc
  | (c, next) :: l => turn next ((c, gap) :: acc) l

section Turn

variable {settled : Char → Char → Bool} {l l' acc acc' : Spaced} {gap gap' : Bool}
  {s s' : List Char}

theorem spaced_reverseAux (s p : List Char) : spaced (s.reverseAux p) =
    turn (p.head?.any isBlank || s.head?.any isBlank) (spaced p) (spaced s) := by
  induction s generalizing p with
  | nil => rfl
  | cons c r ih =>
    rw [List.reverseAux, ih, List.head?_cons, Option.any_some, List.head?_cons, Option.any_some]
    cases hc : isBlank c with
    | true => rw [spaced_blank hc, spaced_blank hc, Bool.true_or, Bool.or_true]
    | false =>
      rw [spaced_letter hc, spaced_letter hc, turn, Bool.false_or, Bool.or_false]

/-- A gap between two letters is settled in reverse if it was before. -/
theorem regap_turn (hl : regap (openRule settled) l = regap (openRule settled) l')
    (hacc : regap (openRule (flip settled)) acc = regap (openRule (flip settled)) acc')
    (hgap : ∀ c, firstLetter l = some c → openRule (flip settled) c (firstLetter acc) gap =
      openRule (flip settled) c (firstLetter acc') gap') :
    regap (openRule (flip settled)) (turn gap acc l) =
      regap (openRule (flip settled)) (turn gap' acc' l') := by
  induction l generalizing l' acc acc' gap gap' with
  | nil =>
    cases l' with
    | nil => exact hacc
    | cons p' l' => cases hl
  | cons p l ih =>
    rcases l' with _ | ⟨⟨c', next'⟩, l'⟩
    · cases hl
    · obtain ⟨c, next⟩ := p
      rw [regap, regap, List.cons.injEq, Prod.mk.injEq] at hl
      obtain ⟨⟨rfl, hnext⟩, hl⟩ := hl
      have hfirst := firstLetter_of_regap hl
      rw [turn, turn]
      refine ih hl ?_ fun d hd => ?_
      · rw [regap, regap, hacc, hgap c rfl]
      · rw [← hfirst, hd] at hnext
        exact hnext

/-- Alike texts are alike when they are read backwards. -/
theorem Alike.reverse (h : Alike settled s s') : Alike (flip settled) s.reverse s'.reverse := by
  rw [Alike, List.reverse, List.reverse, spaced_reverseAux, spaced_reverseAux]
  refine regap_turn h rfl fun c _ => ?_
  simp [openRule, spaced, firstLetter]

end Turn

/-! ## What is left of a text -/

/-- What is left of a text after a start that does not end in a colon. -/
def Cut (s r : List Char) : Prop := ∃ p, s = p ++ r ∧ p.getLast? ≠ some ':'

section Cut

variable {s r r' p : List Char}

theorem Cut.refl (s : List Char) : Cut s s := ⟨[], rfl, by simp⟩

theorem Cut.trans (h : Cut s r) (h' : Cut r r') : Cut s r' := by
  obtain ⟨p, rfl, hp⟩ := h
  obtain ⟨q, rfl, hq⟩ := h'
  refine ⟨p ++ q, (List.append_assoc p q r').symm, ?_⟩
  cases q with
  | nil => rwa [List.append_nil]
  | cons c q => rwa [List.getLast?_append_of_ne_nil _ (List.cons_ne_nil _ _)]

theorem Cut.isSuffix (h : Cut s r) : r <:+ s := by
  obtain ⟨p, rfl, -⟩ := h
  exact ⟨p, rfl⟩

theorem cut_append (hp : ':' ∉ p) : Cut (p ++ r) r :=
  ⟨p, rfl, fun hlast => hp (List.mem_of_getLast? hlast)⟩

theorem cut_dropBlanks (s : List Char) : Cut s (dropBlanks s) := by
  refine ⟨s.takeWhile isBlank, List.takeWhile_append_dropWhile.symm, fun hlast => ?_⟩
  have hcolon := List.mem_takeWhile_imp (List.mem_of_getLast? hlast)
  exact absurd hcolon (by decide)

theorem Cut.onlyScopes (h : Cut s r) (hs : onlyScopes s = true) : onlyScopes r = true := by
  obtain ⟨p, rfl, hp⟩ := h
  exact onlyScopes_suffix hs hp

theorem Cut.onlyScopes_reverse (h : Cut s.reverse r) (hs : Name.onlyScopes s = true) :
    Name.onlyScopes r.reverse = true := by
  obtain ⟨p, hs', hp⟩ := h
  have heq : s = r.reverse ++ p.reverse := by
    rw [← List.reverse_append, ← hs', List.reverse_reverse]
  rw [heq] at hs
  exact onlyScopes_prefix hs (by rwa [List.head?_reverse])

end Cut

end Name

open Text Name

namespace Declarator

/-! ## Dimensions -/

section Dimensions

variable {found found' : List UInt32} {rev rev' r before : List Char} {c : Char}
  {settled : Char → Char → Bool}

theorem takeDimensions_of_ne (h : rev.head? ≠ some ']') :
    takeDimensions found rev = (found, rev) := by
  rw [takeDimensions]
  rintro r rfl
  exact h rfl

theorem takeDimensions_open (h : r.dropWhile (· != '[') = []) :
    takeDimensions found (']' :: r) = (found, ']' :: r) := by
  rw [takeDimensions]
  split
  · rfl
  · simp_all

theorem takeDimensions_bracket (h : r.dropWhile (· != '[') = c :: before) :
    takeDimensions found (']' :: r) =
      takeDimensions (dimension (r.takeWhile (· != '[')).reverse :: found) (dropBlanks before) := by
  rw [takeDimensions]
  split
  · simp_all
  · simp_all

theorem cut_takeDimensions (found : List UInt32) (rev : List Char) :
    Cut rev (takeDimensions found rev).2 := by
  induction found, rev using takeDimensions.induct with
  | case1 found r h => rw [takeDimensions_open h]; exact .refl _
  | case2 found r c before h ih =>
    rw [takeDimensions_bracket h]
    have hc : c = '[' := by
      have hhead := List.head?_dropWhile_not (· != '[') r
      rw [h] at hhead
      simpa using hhead
    have hcut : Cut (']' :: r) before := by
      refine ⟨']' :: r.takeWhile (· != '[') ++ [c], ?_, ?_⟩
      · rw [List.append_assoc, List.singleton_append, ← h, List.cons_append,
          List.takeWhile_append_dropWhile]
      · rw [List.getLast?_concat, hc]
        decide
    exact (hcut.trans (cut_dropBlanks before)).trans ih
  | case3 found rev h =>
    rw [takeDimensions_of_ne]
    · exact .refl _
    · intro hhead
      obtain ⟨r, rfl⟩ := List.head?_eq_some_iff.1 hhead
      exact h r rfl

/-- Dimensions come off alike texts alike. -/
theorem alike_takeDimensions (found found' : List UInt32) (h : Alike settled rev rev')
    (hrev : Fresh rev) (hrev' : Fresh rev') :
    Alike settled (takeDimensions found rev).2 (takeDimensions found' rev').2 ∧
      Fresh (takeDimensions found rev).2 ∧ Fresh (takeDimensions found' rev').2 := by
  have hblank : ∀ c, isBlank c = true → (c != '[') = true := by
    intro c hc
    rw [bne_iff_ne]
    rintro rfl
    exact absurd hc (by decide)
  induction found, rev using takeDimensions.induct generalizing found' rev' with
  | case1 found r hr =>
    rcases h.cases hrev hrev' with ⟨hnil, -⟩ | ⟨c, r₁, r', heq, rfl, halike, -⟩
    · cases hnil
    obtain ⟨rfl, rfl⟩ := List.cons.inj heq
    have hdrop := halike.dropWhile hblank
    rw [hr] at hdrop
    rcases hdrop.cases rfl (fresh_dropWhile hblank r') with ⟨-, hr'⟩ | ⟨_, _, _, hnil, -⟩
    · rw [takeDimensions_open hr, takeDimensions_open hr']
      exact ⟨h, hrev, hrev'⟩
    · cases hnil
  | case2 found r c before hr ih =>
    rcases h.cases hrev hrev' with ⟨hnil, -⟩ | ⟨d, r₁, r', heq, rfl, halike, -⟩
    · cases hnil
    obtain ⟨rfl, rfl⟩ := List.cons.inj heq
    have hdrop := halike.dropWhile hblank
    rcases hdrop.cases (fresh_dropWhile hblank r) (fresh_dropWhile hblank r') with
      ⟨hnil, -⟩ | ⟨e, before₁, before', heq, hr', hbefore, -⟩
    · rw [hr] at hnil
      cases hnil
    rw [hr] at heq
    obtain ⟨rfl, rfl⟩ := List.cons.inj heq
    rw [takeDimensions_bracket hr, takeDimensions_bracket hr']
    exact ih _ hbefore.dropBlanks (fresh_dropBlanks _) (fresh_dropBlanks _)
  | case3 found rev hne =>
    have hhead : rev.head? ≠ some ']' := by
      intro hhead
      obtain ⟨r, rfl⟩ := List.head?_eq_some_iff.1 hhead
      exact hne r rfl
    have hhead' : rev'.head? ≠ some ']' := by
      rcases h.cases hrev hrev' with ⟨-, rfl⟩ | ⟨c, r, r', rfl, rfl, -⟩
      · exact fun hnil => by cases hnil
      · exact hhead
    rw [takeDimensions_of_ne hhead, takeDimensions_of_ne hhead']
    exact ⟨h, hrev, hrev'⟩

end Dimensions

/-! ## Trailing marks -/

theorem findSome?_rel {α β : Type} {R : β → β → Prop} {f g : α → Option β} {as : List α}
    (h : ∀ a ∈ as, Option.Rel R (f a) (g a)) : Option.Rel R (as.findSome? f) (as.findSome? g) := by
  induction as with
  | nil => exact .none
  | cons a as ih =>
    rw [List.forall_mem_cons] at h
    rw [List.findSome?_cons, List.findSome?_cons]
    rcases hf : f a with _ | b <;> rcases hg : g a with _ | c <;> rw [hf, hg] at h
    · exact ih h.2
    · cases h.1
    · cases h.1
    · exact .some (Option.rel_some_some.1 h.1)

/-- The code points of blanks. -/
def blankCodes : List Nat :=
  [0x09, 0x0A, 0x0B, 0x0C, 0x0D, 0x20, 0x85, 0xA0, 0x1680, 0x2000, 0x2001, 0x2002, 0x2003, 0x2004,
    0x2005, 0x2006, 0x2007, 0x2008, 0x2009, 0x200A, 0x2028, 0x2029, 0x202F, 0x205F, 0x3000]

theorem mem_blankCodes {c : Char} (hc : isBlank c = true) : c.toNat ∈ blankCodes := by
  simp only [isBlank, Bool.or_eq_true, Bool.and_eq_true, beq_iff_eq, decide_eq_true_eq] at hc
  simp only [blankCodes, List.mem_cons, List.not_mem_nil, or_false]
  omega

theorem isAlphanumeric_of_isBlank {c : Char} (hc : isBlank c = true) :
    isAlphanumeric c = false := by
  have hall : ∀ n ∈ blankCodes, isAlphanumeric (Char.ofNat n) = false := by decide +kernel
  rw [← Char.ofNat_toNat c]
  exact hall _ (mem_blankCodes hc)

section Suffixes

variable {rev rev' r r' : List Char} {word : String} {c d : Char}

theorem beforeWord?_eq_some_iff : beforeWord? word rev = some r ↔
    ∃ c x, rev = word.toList.reverse ++ c :: x ∧ (isAlphanumeric c || c == '_') = false ∧
      r = dropBlanks (c :: x) := by
  constructor
  · intro h
    rw [beforeWord?] at h
    split at h
    · next c x hx =>
      rw [List.isPrefixOf?_eq_some_iff_append_eq] at hx
      split at h
      · cases h
      · next hc => exact ⟨c, x, hx.symm, Bool.eq_false_iff.2 hc, (Option.some.inj h).symm⟩
    · cases h
  · rintro ⟨c, x, rfl, hc, rfl⟩
    have hx : word.toList.reverse.isPrefixOf? (word.toList.reverse ++ c :: x) = some (c :: x) :=
      List.isPrefixOf?_eq_some_iff_append_eq.2 rfl
    rw [beforeWord?, hx]
    exact if_neg (by simp [hc])

theorem solid_trailingWords : ∀ p ∈ trailingWords,
    p.1.toList.reverse ≠ [] ∧ Solid (flip settled) p.1.toList.reverse := by
  decide +kernel

/-- Before a trailing word, a gap may be missing only where no identifier runs into the word. -/
theorem ends_of_settled {p : String × Suffix} (hp : p ∈ trailingWords) {a : Char}
    (ha : p.1.toList.reverse.getLast? = some a) (h : settled d a = true) :
    (isAlphanumeric d || d == '_') = false := by
  have hfirst : ∀ p ∈ trailingWords, p.1.toList.reverse.getLast?.all isPlain = true := by
    decide +kernel
  have hplain : isPlain a = true := (Option.all_eq_true _ _).1 (hfirst p hp) a ha
  have hd : d = ',' ∨ d = '<' ∨ d = ':' := by
    simp only [isPlain, Bool.not_eq_true', Bool.or_eq_false_iff] at hplain
    simpa [settled, hplain, or_assoc] using h
  rcases hd with rfl | rfl | rfl <;> decide +kernel

theorem exists_beforeWord? {p : String × Suffix} (hp : p ∈ trailingWords)
    (h : Alike (flip settled) rev rev') (hrev : Fresh rev) (hrev' : Fresh rev')
    (hends : EndsFresh rev) (hr : beforeWord? p.1 rev = some r) :
    ∃ r', beforeWord? p.1 rev' = some r' ∧ Alike (flip settled) r r' := by
  obtain ⟨c, x, rfl, hc, rfl⟩ := beforeWord?_eq_some_iff.1 hr
  obtain ⟨hword, hsolid⟩ := solid_trailingWords p hp
  obtain ⟨x', rfl, hx, hgap⟩ := h.after_word hsolid hrev hrev'
  obtain ⟨d, hd⟩ := (hends.suffix (List.suffix_append _ _)).exists_letter (List.cons_ne_nil c x)
  have hd' : firstLetter (spaced x') = some d := by
    rw [← hd]
    exact (firstLetter_of_regap hx).symm
  rcases x' with _ | ⟨c', x'⟩
  · cases hd'
  refine ⟨_, beforeWord?_eq_some_iff.2 ⟨c', x', rfl, ?_, rfl⟩, hx.dropBlanks⟩
  cases hc' : isBlank c' with
  | true =>
    rw [isAlphanumeric_of_isBlank hc', Bool.false_or, beq_eq_false_iff_ne]
    rintro rfl
    exact absurd hc' (by decide)
  | false =>
    rw [spaced_letter hc'] at hd'
    obtain rfl : c' = d := Option.some.inj hd'
    cases hblank : isBlank c with
    | false =>
      rw [spaced_letter hblank] at hd
      obtain rfl : c = c' := Option.some.inj hd
      exact hc
    | true =>
      -- the gap is in one of the texts only, so it is settled
      have ha := List.getLast?_eq_some_getLast hword
      have hsettled := hgap _ c' ha hd
      rw [List.head?_cons, List.head?_cons, Option.any_some, Option.any_some, hblank, hc']
        at hsettled
      refine ends_of_settled hp ha ?_
      by_contra hopen
      cases hsettled (Bool.eq_false_iff.2 hopen)

theorem suffix?_of_ne (h : rev.head? ≠ some '&') (h' : rev.head? ≠ some '*') : suffix? rev =
    trailingWords.findSome? fun (word, mark) => (beforeWord? word rev).map (mark, ·) := by
  rw [suffix?]
  · rintro r rfl
    exact h rfl
  · rintro r rfl
    exact h rfl
  · rintro r rfl
    exact h' rfl

/-- A reversed text without the marks at its end. -/
def stem (rev : List Char) : List Char := (suffixes rev).2

theorem stem_of_some {m : Suffix} (h : suffix? rev = some (m, r)) : stem rev = stem r := by
  rw [stem, suffixes]
  split
  · next m' r' h' =>
    obtain ⟨rfl, rfl⟩ := Prod.mk.inj (Option.some.inj (h.symm.trans h'))
    rfl
  · next h' => cases h.symm.trans h'

theorem stem_of_none (h : suffix? rev = none) : stem rev = rev := by
  rw [stem, suffixes]
  split
  · next m' r' h' => cases h.symm.trans h'
  · rfl

/-- Two marks `&` come off as one or one by one. -/
theorem stem_reference (r : List Char) : stem ('&' :: r) = stem (dropBlanks r) := by
  induction hn : r.length using Nat.strong_induction_on generalizing r with
  | _ n ih =>
    by_cases hr : r.head? = some '&'
    · obtain ⟨r', rfl⟩ := List.head?_eq_some_iff.1 hr
      have hblank : isBlank '&' = false := by decide
      have hlength : r'.length < n := by
        rw [← hn, List.length_cons]
        omega
      rw [stem_of_some (m := .reference) (r := dropBlanks r') rfl, dropBlanks_cons, hblank,
        if_neg Bool.false_ne_true, ih _ hlength r' rfl]
    · refine stem_of_some (m := .reference) ?_
      rw [suffix?]
      rintro r' rfl
      exact hr rfl

theorem stem_pointer (r : List Char) : stem ('*' :: r) = stem (dropBlanks r) :=
  stem_of_some (m := .pointer) rfl

theorem exists_of_suffix? {m : Suffix} (h : suffix? rev = some (m, r)) :
    ∃ x, Cut rev x ∧ r = dropBlanks x := by
  unfold suffix? at h
  split at h
  · obtain ⟨-, rfl⟩ := Prod.mk.inj (Option.some.inj h)
    exact ⟨_, cut_append (p := ['&', '&']) (by decide), rfl⟩
  · obtain ⟨-, rfl⟩ := Prod.mk.inj (Option.some.inj h)
    exact ⟨_, cut_append (p := ['&']) (by decide), rfl⟩
  · obtain ⟨-, rfl⟩ := Prod.mk.inj (Option.some.inj h)
    exact ⟨_, cut_append (p := ['*']) (by decide), rfl⟩
  · obtain ⟨p, hp, hword⟩ := List.exists_of_findSome?_eq_some h
    obtain ⟨t, ht, heq⟩ := Option.map_eq_some_iff.1 hword
    obtain ⟨-, rfl⟩ := Prod.mk.inj heq
    obtain ⟨c, x, rfl, -, rfl⟩ := beforeWord?_eq_some_iff.1 ht
    have hcolon : ∀ p ∈ trailingWords, ':' ∉ p.1.toList.reverse := by decide +kernel
    exact ⟨c :: x, cut_append (hcolon p hp), rfl⟩

theorem cut_suffix? {m : Suffix} (h : suffix? rev = some (m, r)) : Cut rev r := by
  obtain ⟨x, hx, rfl⟩ := exists_of_suffix? h
  exact hx.trans (cut_dropBlanks x)

theorem fresh_suffix? {m : Suffix} (h : suffix? rev = some (m, r)) : Fresh r := by
  obtain ⟨x, -, rfl⟩ := exists_of_suffix? h
  exact fresh_dropBlanks x

theorem cut_stem (rev : List Char) : Cut rev (stem rev) := by
  induction rev using suffixes.induct with
  | case1 rev m r h ms base _ ih =>
    rw [stem_of_some h]
    exact (cut_suffix? h).trans ih
  | case2 rev h => rw [stem_of_none h]; exact .refl _

/-- Marks come off alike texts alike. -/
theorem alike_stem (h : Alike (flip settled) rev rev') (hrev : Fresh rev) (hrev' : Fresh rev')
    (hends : EndsFresh rev) (hends' : EndsFresh rev') :
    Alike (flip settled) (stem rev) (stem rev') ∧ Fresh (stem rev) ∧ Fresh (stem rev') := by
  induction hn : rev.length using Nat.strong_induction_on generalizing rev rev' with
  | _ n ih =>
    have hdropped : ∀ {r r' : List Char}, Alike (flip settled) r r' → Cut rev r → Cut rev' r' →
        r.length < n → Alike (flip settled) (stem (dropBlanks r)) (stem (dropBlanks r')) ∧
          Fresh (stem (dropBlanks r)) ∧ Fresh (stem (dropBlanks r')) := fun halike hcut hcut' hlt =>
      ih _ (Nat.lt_of_le_of_lt (length_dropBlanks_le _) hlt) halike.dropBlanks (fresh_dropBlanks _)
        (fresh_dropBlanks _) (hends.suffix (hcut.trans (cut_dropBlanks _)).isSuffix)
        (hends'.suffix (hcut'.trans (cut_dropBlanks _)).isSuffix) rfl
    by_cases hmark : rev.head? = some '&' ∨ rev.head? = some '*'
    · rcases h.cases hrev hrev' with ⟨rfl, -⟩ | ⟨c, r, r', rfl, rfl, halike, -⟩
      · simp at hmark
      have hlt : r.length < n := by
        rw [← hn, List.length_cons]
        omega
      rw [List.head?_cons, Option.some.injEq, Option.some.injEq] at hmark
      have hc : ':' ∉ [c] := by
        rcases hmark with rfl | rfl <;> decide
      have hstems := hdropped halike (cut_append (p := [c]) hc) (cut_append (p := [c]) hc) hlt
      rcases hmark with rfl | rfl
      · rwa [stem_reference, stem_reference]
      · rwa [stem_pointer, stem_pointer]
    · rw [not_or] at hmark
      have hmark' : rev'.head? ≠ some '&' ∧ rev'.head? ≠ some '*' := by
        rcases h.cases hrev hrev' with ⟨-, rfl⟩ | ⟨c, r, r', rfl, rfl, -⟩
        · exact ⟨by simp, by simp⟩
        · exact hmark
      -- a trailing word ends both texts or none
      have hrel : Option.Rel (fun p p' => Alike (flip settled) p.2 p'.2) (suffix? rev)
          (suffix? rev') := by
        rw [suffix?_of_ne hmark.1 hmark.2, suffix?_of_ne hmark'.1 hmark'.2]
        refine findSome?_rel fun p hp => ?_
        dsimp only
        cases hb : beforeWord? p.1 rev with
        | some r =>
          obtain ⟨r', hr', halike⟩ := exists_beforeWord? hp h hrev hrev' hends hb
          rw [hr']
          exact .some halike
        | none =>
          cases hb' : beforeWord? p.1 rev' with
          | none => exact .none
          | some r' =>
            obtain ⟨r, hr, -⟩ := exists_beforeWord? hp h.symm hrev' hrev hends' hb'
            cases hb.symm.trans hr
      cases hs : suffix? rev with
      | none =>
        cases hs' : suffix? rev' with
        | none => rw [stem_of_none hs, stem_of_none hs']; exact ⟨h, hrev, hrev'⟩
        | some p' => rw [hs, hs'] at hrel; cases hrel
      | some p =>
        cases hs' : suffix? rev' with
        | none => rw [hs, hs'] at hrel; cases hrel
        | some p' =>
          rw [hs, hs', Option.rel_some_some] at hrel
          rw [stem_of_some hs, stem_of_some hs']
          exact ih _ (by rw [← hn]; exact length_of_suffix? hs) hrel (fresh_suffix? hs)
            (fresh_suffix? hs') (hends.suffix (cut_suffix? hs).isSuffix)
            (hends'.suffix (cut_suffix? hs').isSuffix) rfl

end Suffixes

/-! ## Leading words -/

section Leads

variable {s s' r r' : List Char} {word : String}

theorem afterWord?_eq_some_iff : afterWord? word s = some r ↔
    ∃ c x, s = word.toList ++ c :: x ∧ isBlank c = true ∧ r = dropBlanks x := by
  constructor
  · intro h
    rw [afterWord?] at h
    split at h
    · next c x hx =>
      rw [List.isPrefixOf?_eq_some_iff_append_eq] at hx
      split at h
      · next hc => exact ⟨c, x, hx.symm, hc, (Option.some.inj h).symm⟩
      · cases h
    · cases h
  · rintro ⟨c, x, rfl, hc, rfl⟩
    have hx : word.toList.isPrefixOf? (word.toList ++ c :: x) = some (c :: x) :=
      List.isPrefixOf?_eq_some_iff_append_eq.2 rfl
    rw [afterWord?, hx]
    exact if_pos hc

theorem exists_of_lead? {l : Lead} (h : lead? s = some (l, r)) : ∃ word c x,
    (word, l) ∈ leadingWords ∧ s = word.toList ++ c :: x ∧ isBlank c = true ∧ r = dropBlanks x := by
  obtain ⟨⟨word, l'⟩, hp, hword⟩ := List.exists_of_findSome?_eq_some h
  obtain ⟨t, ht, heq⟩ := Option.map_eq_some_iff.1 hword
  obtain ⟨rfl, rfl⟩ := Prod.mk.inj heq
  obtain ⟨c, x, hs, hc, hr⟩ := afterWord?_eq_some_iff.1 ht
  exact ⟨word, c, x, hp, hs, hc, hr⟩

theorem leads_of_some {l : Lead} (h : lead? s = some (l, r)) :
    leads s = (l :: (leads r).1, (leads r).2) := by
  rw [leads]
  split
  · next l' r' h' =>
    obtain ⟨rfl, rfl⟩ := Prod.mk.inj (Option.some.inj (h.symm.trans h'))
    rfl
  · next h' => cases h.symm.trans h'

theorem leads_of_none (h : lead? s = none) : leads s = ([], s) := by
  rw [leads]
  split
  · next l' r' h' => cases h.symm.trans h'
  · rfl

theorem cut_leads (s : List Char) : Cut s (leads s).2 := by
  induction s using leads.induct with
  | case1 s l r h ls base _ ih =>
    rw [leads_of_some h]
    obtain ⟨word, c, x, hp, rfl, hc, rfl⟩ := exists_of_lead? h
    have hcolon : c ≠ ':' := by
      rintro rfl
      exact absurd hc (by decide)
    have hcut : Cut (word.toList ++ c :: x) x := by
      refine ⟨word.toList ++ [c], by rw [List.append_assoc, List.singleton_append], ?_⟩
      rwa [List.getLast?_concat, ne_eq, Option.some.injEq]
    exact (hcut.trans (cut_dropBlanks x)).trans ih
  | case2 s h => rw [leads_of_none h]; exact .refl _

/-- The same leading words come off alike texts alike. -/
theorem alike_leads (h : Alike settled s s') (hs : Fresh s) (hs' : Fresh s')
    (hleads : (leads s).1 = (leads s').1) : Alike settled (leads s).2 (leads s').2 := by
  -- words that say the same start with different letters
  have hwords : ∀ p ∈ leadingWords, ∀ q ∈ leadingWords, p.2 = q.2 →
      p.1.toList.head? = q.1.toList.head? → p = q := by decide +kernel
  have hsolid : ∀ p ∈ leadingWords, p.1.toList ≠ [] ∧ Solid settled p.1.toList := by
    decide +kernel
  induction hn : s.length using Nat.strong_induction_on generalizing s s' with
  | _ n ih =>
    cases hlead : lead? s with
    | none =>
      rw [leads_of_none hlead] at hleads ⊢
      cases hlead' : lead? s' with
      | none => rwa [leads_of_none hlead']
      | some p' =>
        rw [leads_of_some hlead'] at hleads
        cases hleads
    | some p =>
      obtain ⟨l, r⟩ := p
      cases hlead' : lead? s' with
      | none =>
        rw [leads_of_some hlead, leads_of_none hlead'] at hleads
        cases hleads
      | some p' =>
        obtain ⟨l', r'⟩ := p'
        rw [leads_of_some hlead, leads_of_some hlead'] at hleads ⊢
        obtain ⟨rfl, hrest⟩ := List.cons.inj hleads
        have hlt := length_of_lead? hlead
        obtain ⟨word, c, x, hp, rfl, hc, rfl⟩ := exists_of_lead? hlead
        obtain ⟨word', c', x', hp', rfl, hc', rfl⟩ := exists_of_lead? hlead'
        obtain ⟨hne, hword⟩ := hsolid _ hp
        obtain ⟨hne', -⟩ := hsolid _ hp'
        obtain ⟨y, hy, halike, -⟩ := h.after_word hword hs hs'
        have hhead : word.toList.head? = word'.toList.head? := by
          rw [← List.head?_append_of_ne_nil _ hne, ← hy, List.head?_append_of_ne_nil _ hne']
        obtain ⟨rfl, -⟩ := Prod.mk.inj (hwords _ hp _ hp' rfl hhead)
        obtain rfl := List.append_cancel_left hy
        rw [Alike, spaced_blank hc, spaced_blank hc'] at halike
        exact ih _ (by rw [← hn]; exact hlt) (Alike.dropBlanks halike) (fresh_dropBlanks _)
          (fresh_dropBlanks _) hrest rfl

end Leads

/-! ## The whole string -/

/-- A type string without dimensions and trailing marks: its leading words, and its base. -/
def core (text : String) : List Lead × List Char :=
  leads (stem (takeDimensions [] (trim text.toList).reverse).2).reverse

/-- The words that a type string starts with. -/
def leadsOf (text : String) : List Lead := (core text).1

section Whole

variable {text text' : String} {s : List Char}

theorem fresh_trim_reverse (s : List Char) : Fresh (trim s).reverse := by
  rw [trim, trimEnd, List.reverse_reverse]
  exact fresh_dropBlanks _

theorem endsFresh_trim_reverse (s : List Char) : EndsFresh (trim s).reverse := by
  rw [EndsFresh, List.getLast?_reverse]
  exact head?_trim s

theorem alike_trim (s : List Char) : Alike settled (trim s) s := by
  rw [Alike, spaced_trim, closed_eq_regap, regap_regap]
  refine regap_congr (fun c d gap => ?_) _
  cases d <;> simp [openRule]

theorem onlyScopes_trim (h : onlyScopes s = true) : onlyScopes (trim s) = true := by
  have hfront := (cut_dropBlanks s).onlyScopes h
  exact (cut_dropBlanks _).onlyScopes_reverse hfront

theorem base_parse (h : hasPointerGroup (trim text.toList) = true) :
    (parse text).base.toList = trim text.toList := by
  rw [parse, if_pos h, String.toList_ofList]

theorem base_parse_of_not (h : ¬hasPointerGroup (trim text.toList) = true) :
    (parse text).base.toList = trim (core text).2 := by
  rw [parse, if_neg h]
  exact String.toList_ofList

theorem isFunctionPointer_parse (text : String) :
    (parse text).isFunctionPointer = hasPointerGroup (trim text.toList) := by
  rw [parse]
  cases h : hasPointerGroup (trim text.toList) with
  | true => rw [if_pos rfl]
  | false => rw [if_neg Bool.false_ne_true]

theorem trim_base (text : String) : trim (parse text).base.toList = (parse text).base.toList := by
  have htrim : ∀ s, trim (trim s) = trim s := fun s =>
    trim_of_fresh (head?_trim s) (fresh_trim_reverse s)
  by_cases hpointer : hasPointerGroup (trim text.toList) = true
  · rw [base_parse hpointer, htrim]
  · rw [base_parse_of_not hpointer, htrim]

theorem onlyScopes_base (h : onlyScopes text.toList = true) :
    onlyScopes (parse text).base.toList = true := by
  by_cases hpointer : hasPointerGroup (trim text.toList) = true
  · rw [base_parse hpointer]
    exact onlyScopes_trim h
  · rw [base_parse_of_not hpointer]
    have hstem := ((cut_takeDimensions [] _).trans (cut_stem _)).onlyScopes_reverse
      (onlyScopes_trim h)
    exact onlyScopes_trim ((cut_leads _).onlyScopes hstem)

/-- **Bases have one canonical spelling if the whole strings do**, and if these start with the same
words. -/
theorem canonicalBase_eq (h : canonical text = canonical text')
    (hscopes : onlyScopes text.toList = true) (hscopes' : onlyScopes text'.toList = true)
    (hpointer : (parse text).isFunctionPointer = (parse text').isFunctionPointer)
    (hleads : leadsOf text = leadsOf text') :
    (parse text).canonicalBase = (parse text').canonicalBase := by
  have halike : Alike settled (trim text.toList) (trim text'.toList) := by
    have hcanonical := congrArg String.toList h
    rw [toList_canonical, toList_canonical, ← alike_iff hscopes hscopes'] at hcanonical
    exact ((alike_trim _).trans hcanonical).trans (alike_trim _).symm
  rw [isFunctionPointer_parse, isFunctionPointer_parse] at hpointer
  refine String.toList_inj.1 ?_
  rw [canonicalBase, canonicalBase, toList_canonical, toList_canonical,
    ← alike_iff (onlyScopes_base hscopes) (onlyScopes_base hscopes')]
  by_cases hgroup : hasPointerGroup (trim text.toList) = true
  · rw [base_parse hgroup, base_parse (hpointer ▸ hgroup)]
    exact halike
  · rw [base_parse_of_not hgroup, base_parse_of_not (hpointer ▸ hgroup)]
    have hback := halike.reverse
    obtain ⟨hstripped, hfresh, hfresh'⟩ := alike_takeDimensions [] [] hback
      (fresh_trim_reverse _) (fresh_trim_reverse _)
    have hends := (endsFresh_trim_reverse text.toList).suffix (cut_takeDimensions [] _).isSuffix
    have hends' := (endsFresh_trim_reverse text'.toList).suffix (cut_takeDimensions [] _).isSuffix
    obtain ⟨hstem, -, -⟩ := alike_stem hstripped hfresh hfresh' hends hends'
    have hstemEnds := hends.suffix (cut_stem _).isSuffix
    have hstemEnds' := hends'.suffix (cut_stem _).isSuffix
    have hleft := alike_leads hstem.reverse (by rwa [Fresh, List.head?_reverse])
      (by rwa [Fresh, List.head?_reverse]) hleads
    exact ((alike_trim _).trans hleft).trans (alike_trim _).symm

end Whole

end Declarator

end DeclGraph
