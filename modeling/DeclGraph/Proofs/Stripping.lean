import DeclGraph.Proofs.Grammar

/-!
# What is left of a base name

Dimensions, marks and leading words come off a type string one kind after the other, and each kind
once. So the base that is left carries no mark and no leading word, but what has come off may have
stood behind a dimension or a group.

* `Declarator.suffix?_stem`, `Declarator.lead?_leads`: of each kind, nothing is left.
* `Declarator.parse_bare`: a text that carries nothing is its own base.
* `Declarator.parse_base_iff`: **a base carries no modifiers unless it ends in brackets** or has a
  group of its own.
-/

namespace DeclGraph

open Text Name

namespace Declarator

/-- A text that ends in brackets. -/
def Bracketed (s : List Char) : Prop := ∃ front inner, s = front ++ '[' :: (inner ++ [']'])

/-- A base that carries no modifiers. -/
def bareBase (name : String) : Declarator := { base := name, text := name }

section Stripped

variable {s r rev front : List Char}

/-! ## Each kind -/

theorem suffix?_stem (rev : List Char) : suffix? (stem rev) = none := by
  induction rev using suffixes.induct with
  | case1 rev m r h ms base _ ih => rwa [stem_of_some h]
  | case2 rev h => rwa [stem_of_none h]

theorem fresh_stem (h : Fresh rev) : Fresh (stem rev) := by
  induction rev using suffixes.induct with
  | case1 rev m r hm ms base _ ih =>
    rw [stem_of_some hm]
    exact ih (fresh_suffix? hm)
  | case2 rev hm => rwa [stem_of_none hm]

theorem lead?_leads (s : List Char) : lead? (leads s).2 = none := by
  induction s using leads.induct with
  | case1 s l r h ls base _ ih => rwa [leads_of_some h]
  | case2 s h => rwa [leads_of_none h]

theorem fresh_leads (h : Fresh s) : Fresh (leads s).2 := by
  induction s using leads.induct with
  | case1 s l r hl ls base _ ih =>
    rw [leads_of_some hl]
    obtain ⟨word, c, x, -, -, -, rfl⟩ := exists_of_lead? hl
    exact ih (fresh_dropBlanks x)
  | case2 s hl => rwa [leads_of_none hl]

theorem fresh_takeDimensions (found : List UInt32) (h : Fresh rev) :
    Fresh (takeDimensions found rev).2 := by
  induction found, rev using takeDimensions.induct with
  | case1 found r hr => rwa [takeDimensions_open hr]
  | case2 found r c before hr ih =>
    rw [takeDimensions_bracket hr]
    exact ih (fresh_dropBlanks before)
  | case3 found rev hne =>
    have hhead : rev.head? ≠ some ']' := by
      intro hhead
      obtain ⟨r, rfl⟩ := List.head?_eq_some_iff.1 hhead
      exact hne r rfl
    rwa [takeDimensions_of_ne hhead]

/-- Dimensions that come off are put before those that have been found. -/
theorem suffix_takeDimensions (found : List UInt32) (rev : List Char) :
    found <:+ (takeDimensions found rev).1 := by
  induction found, rev using takeDimensions.induct with
  | case1 found r hr =>
    simp [takeDimensions_open hr]
  | case2 found r c before hr ih =>
    rw [takeDimensions_bracket hr]
    exact (List.suffix_cons _ _).trans ih
  | case3 found rev hne =>
    have hhead : rev.head? ≠ some ']' := by
      intro hhead
      obtain ⟨r, rfl⟩ := List.head?_eq_some_iff.1 hhead
      exact hne r rfl
    simp [takeDimensions_of_ne hhead]

/-- If there is no mark at the end of a text, then there is none at the end of what follows its
leading words. -/
theorem suffix?_of_append (h : suffix? (front ++ s).reverse = none) : suffix? s.reverse = none := by
  rcases List.eq_nil_or_concat s with rfl | ⟨s, c, rfl⟩
  · rfl
  obtain ⟨hamp, hstar, hwords⟩ := suffix?_eq_none_iff.1 h
  have htext : (front ++ s.concat c).reverse = (s.concat c).reverse ++ front.reverse :=
    List.reverse_append
  have hhead : (front ++ s.concat c).reverse.head? = (s.concat c).reverse.head? := by simp
  rw [hhead] at hamp hstar
  refine suffix?_eq_none_iff.2 ⟨hamp, hstar, fun p hp => ?_⟩
  rw [Option.eq_none_iff_forall_not_mem]
  intro r hr
  obtain ⟨d, x, heq, hd, -⟩ := beforeWord?_eq_some_iff.1 hr
  have hlonger : (front ++ s.concat c).reverse =
      p.1.toList.reverse ++ d :: (x ++ front.reverse) := by
    rw [htext, heq, List.append_assoc, List.cons_append]
  have hsome := beforeWord?_eq_some_iff.2 ⟨d, x ++ front.reverse, hlonger, hd, rfl⟩
  rw [hwords p hp] at hsome
  cases hsome

theorem Bracketed.getLast?_eq (h : Bracketed s) : s.getLast? = some ']' := by
  obtain ⟨front, inner, rfl⟩ := h
  rw [← List.cons_append, ← List.append_assoc, List.getLast?_concat]

/-- Dimensions come off a text exactly if it ends in brackets. -/
theorem takeDimensions_of_not_bracketed (h : ¬Bracketed s) :
    takeDimensions [] s.reverse = ([], s.reverse) := by
  by_cases hhead : s.reverse.head? = some ']'
  · obtain ⟨r, hr⟩ := List.head?_eq_some_iff.1 hhead
    rw [hr]
    refine takeDimensions_open ?_
    cases hdrop : r.dropWhile (· != '[') with
    | nil => rfl
    | cons c before =>
      have hc : c = '[' := by
        have hnot := List.head?_dropWhile_not (· != '[') r
        rw [hdrop] at hnot
        simpa using hnot
      refine absurd ⟨before.reverse, (r.takeWhile (· != '[')).reverse, ?_⟩ h
      have hsplit : r.takeWhile (· != '[') ++ '[' :: before = r := by
        rw [← hc] at hdrop ⊢
        rw [← hdrop, List.takeWhile_append_dropWhile]
      have hrev : s.reverse = ']' :: (r.takeWhile (· != '[') ++ '[' :: before) := by
        rw [hr, hsplit]
      rw [← List.reverse_reverse s, hrev]
      simp
  · exact takeDimensions_of_ne hhead

theorem takeDimensions_of_bracketed (h : Bracketed s) : (takeDimensions [] s.reverse).1 ≠ [] := by
  obtain ⟨front, inner, rfl⟩ := h
  have htext : (front ++ '[' :: (inner ++ [']'])).reverse =
      ']' :: (inner.reverse ++ '[' :: front.reverse) := by simp
  rw [htext]
  cases hdrop : (inner.reverse ++ '[' :: front.reverse).dropWhile (· != '[') with
  | nil =>
    have hopen := List.dropWhile_eq_nil_iff.1 hdrop '[' (by simp)
    cases hopen
  | cons c before =>
    rw [takeDimensions_bracket hdrop]
    intro hnil
    have hsuffix := suffix_takeDimensions
      [dimension ((inner.reverse ++ '[' :: front.reverse).takeWhile (· != '[')).reverse]
      (dropBlanks before)
    rw [hnil] at hsuffix
    cases List.suffix_nil.1 hsuffix

/-! ## The whole base -/

/-- A text that carries nothing is its own base. -/
theorem parse_bare (htrim : trim s = s) (hgroup : hasPointerGroup s = false)
    (hbracketed : ¬Bracketed s) (hsuffix : suffix? s.reverse = none) (hlead : lead? s = none) :
    parse (String.ofList s) = bareBase (String.ofList s) := by
  rw [parse, String.toList_ofList]
  simp only [htrim, hgroup, Bool.false_eq_true, if_false,
    takeDimensions_of_not_bracketed hbracketed, suffixes_of_none hsuffix, List.reverse_reverse,
    leads_of_none hlead]
  rfl

/-- No mark is left at the end of a base, and no leading word at its start. -/
theorem nothing_left {text : String} {b : List Char} (hb : b = trim (core text).2) :
    suffix? b.reverse = none ∧ lead? b = none := by
  have hfresh : Fresh (takeDimensions [] (trim text.toList).reverse).2 :=
    fresh_takeDimensions [] (fresh_trim_reverse _)
  have hends := (endsFresh_trim_reverse text.toList).suffix (cut_takeDimensions [] _).isSuffix
  rw [core] at hb
  generalize (takeDimensions [] (trim text.toList).reverse).2 = rev at *
  have hstem : Fresh (stem rev).reverse := by
    rw [Fresh, List.head?_reverse]
    exact hends.suffix (cut_stem rev).isSuffix
  obtain ⟨front, hfront, -⟩ := cut_leads (stem rev).reverse
  have hlast : Fresh (leads (stem rev).reverse).2.reverse := by
    have hwhole : EndsFresh (stem rev).reverse := by
      rw [EndsFresh, List.getLast?_reverse]
      exact fresh_stem hfresh
    rw [Fresh, List.head?_reverse]
    exact hwhole.suffix (cut_leads _).isSuffix
  rw [trim_of_fresh (fresh_leads hstem) hlast] at hb
  subst hb
  have hwhole : suffix? (front ++ (leads (stem rev).reverse).2).reverse = none := by
    rw [← hfront, List.reverse_reverse]
    exact suffix?_stem rev
  exact ⟨suffix?_of_append hwhole, lead?_leads _⟩

end Stripped

/-- **A base carries no modifiers exactly if it does not end in brackets** and has no group of its
own: it is its own base then, and there are no dimensions, marks and leading words. -/
theorem parse_base_iff {text : String} (h : (parse text).isFunctionPointer = false) :
    parse (parse text).base = bareBase (parse text).base ↔
      hasPointerGroup (parse text).base.toList = false ∧ ¬Bracketed (parse text).base.toList := by
  rw [isFunctionPointer_parse] at h
  have hbase := base_parse_of_not (Bool.eq_false_iff.1 h)
  obtain ⟨hsuffix, hlead⟩ := nothing_left hbase
  have htrim := trim_base text
  generalize (parse text).base = b at *
  constructor
  · intro hbare
    have hgroup : hasPointerGroup b.toList = false := by
      rw [← htrim, ← isFunctionPointer_parse, hbare]
      rfl
    refine ⟨hgroup, fun hbracketed => takeDimensions_of_bracketed hbracketed ?_⟩
    have hdimensions := congrArg Declarator.dimensions hbare
    rw [parse, htrim, if_neg (Bool.eq_false_iff.1 hgroup)] at hdimensions
    exact hdimensions
  · rintro ⟨hgroup, hbracketed⟩
    have hbare := parse_bare htrim hgroup hbracketed hsuffix hlead
    rwa [String.ofList_toList] at hbare

theorem parse_base_iff_vector :
    (parse "const vector<int[2]> &[3]").isFunctionPointer = false ∧
      (parse "const vector<int[2]> &[3]").base = "vector<int[2]>" ∧
      parse "vector<int[2]>" = { base := "vector<int[2]>", text := "vector<int[2]>" } := by
  have hread : (parse "const vector<int[2]> &[3]").isFunctionPointer = false ∧
      (parse "const vector<int[2]> &[3]").base = "vector<int[2]>" ∧
      hasPointerGroup "vector<int[2]>".toList = false ∧
      "vector<int[2]>".toList.getLast? = some '>' := by decide +kernel
  obtain ⟨hpointer, hbase, hgroup, hlast⟩ := hread
  have hbare := parse_base_iff hpointer
  rw [hbase] at hbare
  refine ⟨hpointer, hbase, hbare.2 ⟨hgroup, fun hbracketed => ?_⟩⟩
  cases hlast.symm.trans hbracketed.getLast?_eq

/-- A dimension that stands before a mark is left in the base, and so is a function pointer that is
pointed at. -/
theorem parse_base_not_bare :
    (parse "Foo[3] const").isFunctionPointer = false ∧ (parse "Foo[3] const").base = "Foo[3]" ∧
      (parse "Foo[3]").base = "Foo" ∧ (parse "Foo[3]").dimensions = [3] ∧
    (parse "void (*)(int)*").isFunctionPointer = false ∧
      (parse "void (*)(int)*").base = "void (*)(int)" ∧
      (parse "void (*)(int)").pointerDepth = 1 := by decide +kernel

end Declarator

end DeclGraph
