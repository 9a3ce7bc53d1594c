import Mathlib.Data.List.Infix
import DeclGraph.Name.Scope

/-!
# Segments that are joined

A name that is joined of segments is cut into these segments again. For that, brackets have to be
balanced in each segment, and colons have to stand inside brackets, so that no scope operator of a
segment separates anything.

* `Nested`: a text that closes no bracket of another one, with colons inside brackets only.
* `cutScopes_nested`: such a text is read as a whole, whatever comes after it.
* `enclosing_eq`: the scopes around a declaration are the nonempty beginnings of its namespace.
* `segments_ofSegments`: **cutting at scope operators inverts joining with them.**
-/

namespace DeclGraph.Name

open Text

/-- How many brackets are open after a character, if `depth` were before it. -/
def openAfter (depth : Nat) (c : Char) : Nat :=
  if c = '<' then depth + 1 else if c = '>' then depth - 1 else depth

/-- A text no beginning of which closes more brackets than were opened, in it or as the `depth`
brackets before it, and in which every colon stands where a bracket is open. -/
structure Nested (depth : Nat) (cs : List Char) : Prop where
  opened : ∀ before, before <+: cs → before.count '>' ≤ depth + before.count '<'
  inner : ∀ before, before ++ [':'] <+: cs → before.count '>' < depth + before.count '<'

/-- A segment of a qualified name: brackets are balanced, and colons stand inside them only. -/
structure IsSegment (part : List Char) : Prop where
  nonempty : part ≠ []
  nested : Nested 0 part
  closed : part.count '>' = part.count '<'

section Nesting

variable {depth : Nat} {c : Char} {cs piece : List Char} {parts : List (List Char)}

/-- The brackets of a text are weighed alike with its first letter and after it. -/
theorem openAfter_add_count (hclose : c = '>' → 0 < depth) (cs : List Char) :
    openAfter depth c + cs.count '<' + (c :: cs).count '>' =
      depth + (c :: cs).count '<' + cs.count '>' := by
  simp only [List.count_cons, beq_iff_eq, openAfter]
  by_cases hopen : c = '<'
  · subst hopen
    rw [if_pos rfl, if_pos rfl, if_neg (by decide)]
    omega
  · by_cases hc : c = '>'
    · have hdepth := hclose hc
      rw [if_neg hopen, if_pos hc, if_pos hc, if_neg hopen]
      omega
    · rw [if_neg hopen, if_neg hc, if_neg hc, if_neg hopen]
      omega

theorem nested_nil : Nested depth [] where
  opened before h := by
    rw [List.prefix_nil.1 h]
    exact Nat.zero_le _
  inner before h := absurd (List.prefix_nil.1 h) (List.concat_ne_nil _ _)

/-- **Nesting, character by character**: where a bracket is closed, and where a colon stands, one is
open. -/
theorem nested_cons : Nested depth (c :: cs) ↔
    (c = '>' → 0 < depth) ∧ (c = ':' → 0 < depth) ∧ Nested (openAfter depth c) cs := by
  constructor
  · intro h
    have hclose : c = '>' → 0 < depth := by
      rintro rfl
      have hopened := h.opened ['>'] (List.prefix_append ['>'] cs)
      simpa [Nat.pos_iff_ne_zero, Nat.one_le_iff_ne_zero] using hopened
    have hcolon : c = ':' → 0 < depth := by
      rintro rfl
      simpa using h.inner [] (List.prefix_append [':'] cs)
    refine ⟨hclose, hcolon, fun before hbefore => ?_, fun before hbefore => ?_⟩
    · have hopened := h.opened (c :: before) (List.cons_prefix_cons.2 ⟨rfl, hbefore⟩)
      have hcount := openAfter_add_count hclose before
      omega
    · have hinner := h.inner (c :: before) (List.cons_prefix_cons.2 ⟨rfl, hbefore⟩)
      have hcount := openAfter_add_count hclose before
      omega
  · rintro ⟨hclose, hcolon, h⟩
    -- a beginning is empty, or starts with the letter and goes on with a beginning of the rest
    refine ⟨fun before hbefore => ?_, fun before hbefore => ?_⟩
    · cases before with
      | nil => exact Nat.zero_le _
      | cons d before =>
        obtain ⟨rfl, hrest⟩ := List.cons_prefix_cons.1 hbefore
        have hopened := h.opened before hrest
        have hcount := openAfter_add_count hclose before
        omega
    · cases before with
      | nil =>
        obtain ⟨hc, -⟩ := List.cons_prefix_cons.1 hbefore
        exact hcolon hc.symm
      | cons d before =>
        obtain ⟨rfl, hrest⟩ := List.cons_prefix_cons.1 hbefore
        have hinner := h.inner before hrest
        have hcount := openAfter_add_count hclose before
        omega

/-- Nesting can be followed along a text. -/
instance decidableNested : (depth : Nat) → (cs : List Char) → Decidable (Nested depth cs)
  | _, [] => isTrue nested_nil
  | depth, c :: cs =>
    have := decidableNested (openAfter depth c) cs
    decidable_of_iff _ nested_cons.symm

theorem isSegment_iff {part : List Char} :
    IsSegment part ↔ part ≠ [] ∧ Nested 0 part ∧ part.count '>' = part.count '<' :=
  ⟨fun h => ⟨h.nonempty, h.nested, h.closed⟩, fun h => ⟨h.1, h.2.1, h.2.2⟩⟩

instance (part : List Char) : Decidable (IsSegment part) := decidable_of_iff _ isSegment_iff.symm

/-! ## Cutting -/

/-- A character is read into a segment, unless it is a colon outside brackets. -/
theorem cutScopes_letter (hcolon : c = ':' → 0 < depth) (r : List Char) :
    cutScopes depth piece (c :: r) = cutScopes (openAfter depth c) (c :: piece) r := by
  rw [cutScopes]
  · rfl
  · rintro s rfl hc -
    exact absurd (hcolon hc) (Nat.lt_irrefl 0)

/-- **A nested text is read as a whole**, whatever comes after it. -/
theorem cutScopes_nested (h : Nested depth cs) (r : List Char) :
    cutScopes depth piece (cs ++ r) =
      cutScopes (depth + cs.count '<' - cs.count '>') (cs.reverse ++ piece) r := by
  induction cs generalizing depth piece with
  | nil => rfl
  | cons c cs ih =>
    obtain ⟨hclose, hcolon, htail⟩ := nested_cons.1 h
    have hcount := openAfter_add_count hclose cs
    have hdepth : openAfter depth c + cs.count '<' - cs.count '>' =
        depth + (c :: cs).count '<' - (c :: cs).count '>' := by omega
    rw [List.cons_append, cutScopes_letter hcolon, ih htail, hdepth, List.reverse_cons,
      List.append_assoc, List.singleton_append]

/-- A segment leaves no bracket open. -/
theorem cutScopes_segment {part : List Char} (h : IsSegment part) (r : List Char) :
    cutScopes 0 [] (part ++ r) = cutScopes 0 part.reverse r := by
  rw [cutScopes_nested h.nested, h.closed, Nat.add_sub_cancel, List.append_nil]

/-- Joined segments are cut where they were joined. -/
theorem cutScopes_join (hne : parts ≠ []) (hparts : ∀ part ∈ parts, IsSegment part) :
    cutScopes 0 [] (join [':', ':'] parts) = parts := by
  induction parts with
  | nil => exact absurd rfl hne
  | cons part rest ih =>
    obtain ⟨hpart, hrest⟩ := List.forall_mem_cons.1 hparts
    cases rest with
    | nil =>
      have hcut := cutScopes_segment hpart []
      rw [List.append_nil] at hcut
      rw [join, hcut, cutScopes, List.reverse_reverse]
    | cons next rest =>
      have hcut := cutScopes_segment hpart ([':', ':'] ++ join [':', ':'] (next :: rest))
      rw [join, List.append_assoc, hcut, List.cons_append, List.singleton_append, cutScopes,
        ih (List.cons_ne_nil _ _) hrest, List.reverse_reverse]
      exact List.cons_ne_nil _ _

end Nesting

/-! ## Scopes around a declaration -/

/-- The nonempty beginnings of a list, from the shortest on. -/
theorem map_take_range {α : Type} (l : List α) :
    (List.range l.length).map (fun n => l.take (n + 1)) = l.inits.tail := by
  refine List.ext_getElem (by simp) fun n hleft hright => ?_
  rw [List.getElem_map, List.getElem_range, List.getElem_tail, List.getElem_inits]

/-- **The scopes around a declaration** are the nonempty beginnings of its namespace, longest
first. -/
theorem enclosing_eq (space : String) :
    enclosing space = (segments space).inits.tail.reverse.map ofSegments := by
  rw [← map_take_range, ← List.map_reverse, List.map_map]
  rfl

/-- No segment is lost as an empty one. -/
theorem segments_joined {parts : List String} (hne : parts ≠ [])
    (hparts : ∀ part ∈ parts, IsSegment part.toList) : segments (ofSegments parts) = parts := by
  have hcut : cutScopes 0 [] (ofSegments parts).toList = parts.map String.toList := by
    rw [ofSegments, joinStrings, String.toList_ofList]
    exact cutScopes_join (by simpa using hne) (by simpa using hparts)
  have hkept : (parts.map String.toList).filter (!·.isEmpty) = parts.map String.toList := by
    refine List.filter_eq_self.2 fun cs hcs => ?_
    obtain ⟨part, hpart, rfl⟩ := List.mem_map.1 hcs
    simpa using (hparts part hpart).nonempty
  rw [segments, segmentChars, hcut, hkept, List.map_map]
  simp

/-- **Cutting inverts joining**: a name that is joined of segments has these segments, the last of
them as its last segment, and the names of their beginnings as its scopes, longest first. -/
theorem segments_ofSegments {parts : List String} (hne : parts ≠ [])
    (hparts : ∀ part ∈ parts, IsSegment part.toList) :
    segments (ofSegments parts) = parts ∧
      lastSegment (ofSegments parts) = parts.getLast hne ∧
      enclosing (ofSegments parts) = parts.inits.tail.reverse.map ofSegments := by
  have hsegments := segments_joined hne hparts
  refine ⟨hsegments, ?_, ?_⟩
  · rw [lastSegment, hsegments, List.getLast?_eq_some_getLast hne, Option.getD_some]
  · rw [enclosing_eq, hsegments]

/-- Scope operators and a lone colon inside nested brackets, brackets that close right before a
scope operator, and letters of several bytes. -/
theorem segments_ofSegments_templated :
    ofSegments ["größe", "Map<b::C, Set<d::E>>", "at<x?y:z>", "𝛼"] =
        "größe::Map<b::C, Set<d::E>>::at<x?y:z>::𝛼" ∧
      segments "größe::Map<b::C, Set<d::E>>::at<x?y:z>::𝛼" =
        ["größe", "Map<b::C, Set<d::E>>", "at<x?y:z>", "𝛼"] ∧
      lastSegment "größe::Map<b::C, Set<d::E>>::at<x?y:z>::𝛼" = "𝛼" ∧
      enclosing "größe::Map<b::C, Set<d::E>>::at<x?y:z>::𝛼" =
        ["größe::Map<b::C, Set<d::E>>::at<x?y:z>::𝛼", "größe::Map<b::C, Set<d::E>>::at<x?y:z>",
          "größe::Map<b::C, Set<d::E>>", "größe"] := by
  have hjoined : ofSegments ["größe", "Map<b::C, Set<d::E>>", "at<x?y:z>", "𝛼"] =
      "größe::Map<b::C, Set<d::E>>::at<x?y:z>::𝛼" := by decide +kernel
  have hparts : ∀ part ∈ ["größe", "Map<b::C, Set<d::E>>", "at<x?y:z>", "𝛼"],
      IsSegment part.toList := by decide +kernel
  obtain ⟨hsegments, hlast, hscopes⟩ := segments_ofSegments (by decide) hparts
  rw [hjoined] at hsegments hlast hscopes
  exact ⟨hjoined, hsegments, hlast, hscopes.trans (by decide +kernel)⟩

end DeclGraph.Name
