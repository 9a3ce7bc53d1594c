import Mathlib.Order.Bounds.Basic
import DeclGraph.Proofs.Alike
import DeclGraph.Proofs.Chains
import DeclGraph.Proofs.Consistency

/-!
# The innermost declaration of a name

A scope has a level for each number of its first segments. The name that a type string is written
with is looked up at each level, from the innermost to the outermost, before anything else is
tried. So a type hides what has its name further out, and typedefs of any level.

* `Name.inScopes_eq`: the names in the scopes around a declaration are the name at each level.
* `Store.winner_eq_of_typeNamed`: what a name stands for as a type wins over all other strategies.
* `Store.winner_innermost`: **the type of the innermost level wins**, and an absolute name is looked
  up at the outermost level only.
-/

namespace DeclGraph

open Text Name

namespace Text

theorem join_append_singleton (sep : List Char) {parts : List (List Char)} (hparts : parts ≠ [])
    (part : List Char) : join sep (parts ++ [part]) = join sep parts ++ sep ++ part := by
  induction parts with
  | nil => exact absurd rfl hparts
  | cons first parts ih =>
    cases parts with
    | nil => rfl
    | cons second parts =>
      have hjoin : ∀ rest, join sep (first :: second :: rest) =
          first ++ sep ++ join sep (second :: rest) := fun _ => rfl
      rw [List.cons_append, List.cons_append, hjoin, hjoin, ← List.cons_append,
        ih (List.cons_ne_nil _ _)]
      simp only [List.append_assoc]

end Text

/-! ## Levels of a scope -/

namespace Name

/-- A name at a level of a scope: inside the first `level` segments. -/
def atLevel (scope : String) (level : Nat) (name : String) : String :=
  ofSegments ((segments scope).take level ++ [name])

theorem ofSegments_singleton (name : String) : ofSegments [name] = name := String.ofList_toList

/-- Outside all segments a name stands as it is. -/
theorem atLevel_zero (scope name : String) : atLevel scope 0 name = name := ofSegments_singleton name

theorem ofSegments_append_singleton {parts : List String} (hparts : parts ≠ []) (name : String) :
    ofSegments (parts ++ [name]) = ofSegments parts ++ "::" ++ name := by
  have hchars : parts.map String.toList ≠ [] := by simpa using hparts
  refine String.toList_inj.1 ?_
  rw [ofSegments, joinStrings, List.map_append, List.map_singleton,
    Text.join_append_singleton _ hchars]
  simp [ofSegments, joinStrings]

theorem ne_empty_of_mem_segments {scope part : String} (hpart : part ∈ segments scope) :
    part ≠ "" := by
  obtain ⟨cs, hcs, rfl⟩ := List.mem_map.1 hpart
  obtain ⟨-, hne⟩ := List.mem_filter.1 hcs
  rintro hempty
  have hnil : cs = [] := by simpa using congrArg String.toList hempty
  rw [hnil] at hne
  cases hne

/-- Segments that are joined are not empty. -/
theorem ofSegments_ne_empty {parts : List String} (hne : parts ≠ [])
    (hparts : ∀ part ∈ parts, part ≠ "") : ofSegments parts ≠ "" := by
  obtain ⟨init, last, rfl⟩ : ∃ init last, parts = init ++ [last] :=
    ⟨parts.dropLast, parts.getLast hne, (List.dropLast_append_getLast hne).symm⟩
  intro hempty
  have hchars := congrArg String.toList hempty
  have hlast := hparts last (by simp)
  cases init with
  | nil => exact hlast (by rwa [List.nil_append, ofSegments_singleton] at hempty)
  | cons first init =>
    rw [ofSegments_append_singleton (List.cons_ne_nil _ _)] at hchars
    simp at hchars

/-- A name in one of the scopes around a declaration. -/
theorem qualify_eq_atLevel {scope name : String} (hname : relative name = name) {i : Nat}
    (hi : i < (segments scope).length) :
    qualify (ofSegments ((segments scope).take (i + 1))) name = atLevel scope (i + 1) name := by
  have hne : (segments scope).take (i + 1) ≠ [] := by
    intro hnil
    have hlength := congrArg List.length hnil
    rw [List.length_take, List.length_nil] at hlength
    omega
  have hspace : ofSegments ((segments scope).take (i + 1)) ≠ "" :=
    ofSegments_ne_empty hne fun part hpart => ne_empty_of_mem_segments (List.mem_of_mem_take hpart)
  rw [qualify, if_neg hspace, hname, atLevel, ofSegments_append_singleton hne]

/-- **A relative name stands for itself at each level**, from the innermost to the outermost. -/
theorem inScopes_eq {scope name : String} (hname : relative name = name) : inScopes scope name =
    (List.range ((segments scope).length + 1)).reverse.map (atLevel scope · name) := by
  have hinside : (enclosing scope).map (qualify · name) =
      ((List.range (segments scope).length).map Nat.succ).reverse.map (atLevel scope · name) := by
    simp only [enclosing, List.map_map, ← List.map_reverse, Function.comp_def, Nat.succ_eq_add_one]
    refine List.map_congr_left fun i hi => ?_
    rw [qualify_eq_atLevel hname (List.mem_range.1 (List.mem_reverse.1 hi))]
  rw [inScopes, hinside, List.range_succ_eq_map, List.reverse_cons, List.map_append,
    List.map_singleton, atLevel_zero]

end Name

/-- A search from the highest number down ends at the greatest one for which there is something. -/
theorem findSome?_reverse_range {α : Type} (f : Nat → Option α) {n : Nat}
    (hsome : {i | i ≤ n ∧ (f i).isSome = true}.Nonempty) :
    ∃ j, IsGreatest {i | i ≤ n ∧ (f i).isSome = true} j ∧
      (List.range (n + 1)).reverse.findSome? f = f j := by
  induction n with
  | zero =>
    obtain ⟨i, hi, hfi⟩ := hsome
    obtain rfl := Nat.le_zero.1 hi
    refine ⟨0, ⟨⟨hi, hfi⟩, fun i hi => hi.1⟩, ?_⟩
    rw [List.range_one, List.reverse_singleton, List.findSome?_singleton]
  | succ n ih =>
    rw [List.range_succ, List.reverse_append, List.reverse_singleton, List.singleton_append,
      List.findSome?_cons]
    cases hlast : f (n + 1) with
    | some a => exact ⟨n + 1, ⟨⟨le_rfl, by rw [hlast]; rfl⟩, fun i hi => hi.1⟩, hlast.symm⟩
    | none =>
      -- nothing is found for the highest number, so the others decide
      have hsame : {i | i ≤ n + 1 ∧ (f i).isSome = true} = {i | i ≤ n ∧ (f i).isSome = true} := by
        ext i
        refine ⟨fun ⟨hi, hfi⟩ => ⟨?_, hfi⟩, fun ⟨hi, hfi⟩ => ⟨Nat.le_succ_of_le hi, hfi⟩⟩
        have hne : i ≠ n + 1 := by
          rintro rfl
          rw [hlast] at hfi
          cases hfi
        omega
      rw [hsame] at hsome ⊢
      exact ih hsome

theorem Request.declarator_make (text scope : String) :
    (make text scope).declarator = Declarator.parse text := rfl

namespace Store

/-- The levels of a scope at which there is a type of a name. -/
def levels (s : Store) (scope name : String) : Set Nat :=
  {level | level ≤ (segments scope).length ∧
    ∃ t ∈ s.types.values, t.qualifiedName = atLevel scope level name}

section Winner

variable {s : Store} {r : Request} {text scope name : String}

/-- **A type of the written name wins** over what all strategies find that come later. -/
theorem winner_eq_of_typeNamed (hleaf : r.declarator.isPrimitiveLeaf = false) {found : Resolution}
    (hfound : s.typeNamed r r.declarator.base = some found) :
    (s.winner r).value = some (.exact, found) := by
  have hprimitive : (s.tryStrategy r .primitive).value = none := by
    rw [value_tryStrategy, found?, hleaf, if_neg Bool.false_ne_true]
  have hexact : (s.tryStrategy r .exact).value = some found := by
    rw [value_tryStrategy, found?, hfound]
  rw [winner, Strategy.all, firstStrategy, Noted.value_bind, hprimitive]
  dsimp only
  rw [firstStrategy, Noted.value_bind, hexact, Noted.value_pure]

theorem namesFor_base (hname : (Declarator.parse text).base = name) (hne : name ≠ "") :
    (Request.make text scope).namesFor name = readings scope name := by
  have htrim : onChars trim name = name := by
    rw [← hname, onChars, Declarator.trim_base, String.ofList_toList]
  simp only [Request.namesFor, htrim, if_neg hne, Request.make]

/-- The first reading of the written name that a type has wins. -/
theorem winner_of_reading (hname : (Declarator.parse text).base = name)
    (hleaf : (Declarator.parse text).isPrimitiveLeaf = false) (hne : name ≠ "") {t : DeclaredType}
    (ht : (readings scope name).findSome? s.typeByName? = some t) :
    (s.winner (.make text scope)).value = some (.exact, .type t.id) := by
  have hfound : s.typeNamed (.make text scope) name = some (.type t.id) := by
    rw [typeNamed, namesFor_base hname hne, ht, Option.map_some]
  refine winner_eq_of_typeNamed ?_ ?_
  · rw [Request.declarator_make, hleaf]
  · rw [Request.declarator_make, hname, hfound]

theorem isSome_typeByName? (h : s.Sound) :
    (s.typeByName? name).isSome = true ↔ ∃ t ∈ s.types.values, t.qualifiedName = name := by
  simp only [Option.isSome_iff_exists, typeByName?_eq_some h]

/-- **The innermost declaration wins.** A relative name that types have at some levels of the scope
is resolved to the type of the innermost of these. An absolute name is resolved to the type that has
the rest as its name, whatever the scope. -/
theorem winner_innermost (h : s.Reachable) (hname : (Declarator.parse text).base = name)
    (hleaf : (Declarator.parse text).isPrimitiveLeaf = false) :
    (name ≠ "" → isAbsolute name = false → (s.levels scope name).Nonempty →
      ∃ level, IsGreatest (s.levels scope name) level ∧
        ∀ t ∈ s.types.values, t.qualifiedName = atLevel scope level name →
          (s.winner (.make text scope)).value = some (.exact, .type t.id)) ∧
    (isAbsolute name = true → ∀ t ∈ s.types.values, t.qualifiedName = relative name →
      (s.winner (.make text scope)).value = some (.exact, .type t.id)) := by
  have htype : ∀ {t n}, t ∈ s.types.values → t.qualifiedName = n → s.typeByName? n = some t :=
    fun ht hn => (typeByName?_eq_some h.sound).2 ⟨ht, hn⟩
  constructor
  · intro hne habsolute hlevels
    have hset : s.levels scope name = {i | i ≤ (segments scope).length ∧
        (s.typeByName? (atLevel scope i name)).isSome = true} := by
      simp only [levels, isSome_typeByName? h.sound]
    rw [hset] at hlevels ⊢
    obtain ⟨level, hgreatest, hfound⟩ :=
      findSome?_reverse_range (fun i => s.typeByName? (atLevel scope i name)) hlevels
    refine ⟨level, hgreatest, fun t ht hqualified =>
      winner_of_reading hname hleaf hne ?_⟩
    rw [readings, if_neg (by rw [habsolute]; exact Bool.false_ne_true),
      inScopes_eq (relative_eq_self habsolute), List.findSome?_map]
    exact hfound.trans (htype ht hqualified)
  · intro habsolute t ht hqualified
    have hne : name ≠ "" := by
      rintro rfl
      exact absurd habsolute (by decide)
    refine winner_of_reading hname hleaf hne ?_
    rw [readings, if_pos habsolute, List.findSome?_singleton, htype ht hqualified]

end Winner

/-- Types and typedefs of one name at many levels, with brackets in a scope, and elsewhere. -/
def shadowed : Store :=
  [.addType { name := "Foo", kind := .struct },
    .addType { name := "Foo", space := "a", kind := .struct },
    .addType { name := "Foo", space := "a::Box<x::y>", kind := .class_ },
    Operation.addTypedef "a::Box<x::y>::c" "Foo" "int",
    .addType { name := "Foo", space := "x::y", kind := .union }].foldl perform empty

theorem reachable_shadowed : shadowed.Reachable := leads_foldl _ _

theorem winner_innermost_shadowed :
    (shadowed.winner (.make "const Foo*[2]" "a::Box<x::y>::c::d")).value =
      some (.exact, .type ⟨3⟩) ∧
    (shadowed.winner (.make "::Foo &" "a::Box<x::y>::c::d")).value =
      some (.exact, .type ⟨1⟩) := by
  have hsegments : segments "a::Box<x::y>::c::d" = ["a", "Box<x::y>", "c", "d"] := by
    decide +kernel
  have hfour : (segments "a::Box<x::y>::c::d").length = 4 := by rw [hsegments]; rfl
  have hnone : ∀ i ≤ 4, 2 < i → ∀ t ∈ shadowed.types.values,
      t.qualifiedName ≠ atLevel "a::Box<x::y>::c::d" i "Foo" := by decide +kernel
  have hfound : ∃ t ∈ shadowed.types.values,
      t.qualifiedName = atLevel "a::Box<x::y>::c::d" 2 "Foo" ∧ t.id = ⟨3⟩ := by decide +kernel
  obtain ⟨t, ht, hqualified, hid⟩ := hfound
  have htwo : 2 ∈ shadowed.levels "a::Box<x::y>::c::d" "Foo" :=
    ⟨by rw [hfour]; decide, t, ht, hqualified⟩
  have hgreatest : IsGreatest (shadowed.levels "a::Box<x::y>::c::d" "Foo") 2 := by
    refine ⟨htwo, ?_⟩
    rintro i ⟨hi, u, hu, hqualified⟩
    rw [hfour] at hi
    by_contra hlt
    exact hnone i hi (Nat.lt_of_not_le hlt) u hu hqualified
  have hbase : (Declarator.parse "const Foo*[2]").base = "Foo" := by decide +kernel
  have hbase' : (Declarator.parse "::Foo &").base = "::Foo" := by decide +kernel
  constructor
  · obtain ⟨level, hlevel, hwins⟩ := (winner_innermost reachable_shadowed hbase
      (by decide +kernel)).1 (by decide) (by decide) ⟨2, htwo⟩
    obtain rfl := hlevel.unique hgreatest
    rw [← hid]
    exact hwins t ht hqualified
  · have htype : ∃ t ∈ shadowed.types.values,
        t.qualifiedName = relative "::Foo" ∧ t.id = ⟨1⟩ := by decide +kernel
    obtain ⟨t, ht, hqualified, hid⟩ := htype
    rw [← hid]
    exact (winner_innermost reachable_shadowed hbase' (by decide +kernel)).2 (by decide) t ht
      hqualified

end Store

end DeclGraph
