import Mathlib.Logic.Relation
import DeclGraph.Proofs.LayoutReads

/-!
# What typedefs come to in a layout

Layout reads the target of a typedef where the typedef is declared, innermost scope first, and goes
on from typedef to typedef. If no target carries a modifier, the walk multiplies nothing and comes
to a type or a primitive.

* `Store.Comes`: what a typedef comes to, without a walk.
* `Store.Comes.not_transGen`: a typedef that comes to something is on no cycle.
* `Store.extent_iff`: the walk of a layout finds what the typedef comes to, and nothing else.
-/

namespace DeclGraph

open Name

/-- The canonical base name in the type string of a reference. -/
def Reference.base (r : Reference) : String := (Declarator.parse r.typeString).canonicalBase

/-- What a reference has been linked to: a type, or else the primitive that its string spells. -/
def Reference.leaf (r : Reference) : Leaf :=
  match r.target, (Declarator.parse r.typeString).primitive with
  | some id, _ => .type id
  | none, some p => .primitive p
  | none, none => .unsized

namespace LayoutInput

variable {d : LayoutInput} {visited : List String} {name : String} {count : Option UInt32}

theorem typedefExtent_of_deadEnd (hv : name ∉ visited) (hl : d.sizeLink name = .deadEnd) :
    d.typedefExtent visited name = ⟨none, none⟩ := by
  rw [typedefExtent, dif_neg hv]
  split <;> simp_all

theorem typedefExtent_of_leaf (hv : name ∉ visited) {leaf : Leaf}
    (hl : d.sizeLink name = .leaf leaf count) :
    d.typedefExtent visited name = ⟨some (Extent.times ⟨leaf, []⟩ count), none⟩ := by
  rw [typedefExtent, dif_neg hv]
  split <;> simp_all

theorem typedefExtent_of_next (hv : name ∉ visited) {next : String}
    (hl : d.sizeLink name = .next next count) : (d.typedefExtent visited name).extent =
      (d.typedefExtent (name :: visited) next).extent.map (·.times count) := by
  rw [typedefExtent, dif_neg hv]
  split <;> simp_all

end LayoutInput

namespace Store

/-- The name is that of the typedef `t`, and the target of `t` is `r`. -/
structure Aliases (s : Store) (name : String) (t : Typedef) (r : Reference) : Prop where
  typedef : s.typedefIndex.find? name = some t
  target : s.references.find? t.target = some r

/-- What a typedef comes to, if each target is read where the typedef is declared. -/
inductive Comes (s : Store) : String → Leaf → Prop
  | type {name t r id} (h : s.Aliases name t r)
      (hd : s.declared? r.base t.space = some (.type id)) : Comes s name (.type id)
  /-- Nothing of the name is declared around the typedef, but the target has been linked. -/
  | linked {name t r} (h : s.Aliases name t r) (hd : s.declared? r.base t.space = none)
      (hleaf : r.leaf ≠ .unsized) : Comes s name r.leaf
  | next {name t r next leaf} (h : s.Aliases name t r)
      (hd : s.declared? r.base t.space = some (.typedef next)) (hc : Comes s next leaf) :
      Comes s name leaf

/-- The target of the typedef `name` is the typedef `next`. -/
def Next (s : Store) (name next : String) : Prop :=
  ∃ t r, s.Aliases name t r ∧ s.declared? r.base t.space = some (.typedef next)

/-- No target of a typedef carries a modifier, and what follows a `::` is declared in no scope. -/
def PlainTypedefs (s : Store) : Prop :=
  ∀ t ∈ s.typedefs.values, ∀ r ∈ s.references.find? t.target,
    r.isIndirect = false ∧ r.isArray = false ∧ s.Unscoped r.base t.space

instance (s : Store) : Decidable s.PlainTypedefs := List.decidableBAll _ _

variable {s : Store} {name next : String} {t t' : Typedef} {r r' : Reference} {leaf : Leaf}

theorem Aliases.unique (h : s.Aliases name t r) (h' : s.Aliases name t' r') : t = t' ∧ r = r' := by
  obtain rfl := Option.some.inj (h.typedef.symm.trans h'.typedef)
  exact ⟨rfl, Option.some.inj (h.target.symm.trans h'.target)⟩

theorem Next.eq_of_aliases (hnext : s.Next name next) (h : s.Aliases name t r) :
    s.declared? r.base t.space = some (.typedef next) := by
  obtain ⟨t', r', h', hd⟩ := hnext
  obtain ⟨rfl, rfl⟩ := h'.unique h
  exact hd

/-- A typedef that comes to something is on no cycle. -/
theorem Comes.not_transGen (h : s.Comes name leaf) : ¬Relation.TransGen s.Next name name := by
  induction h with
  | type ha hd =>
    intro hcycle
    obtain ⟨next, hnext, -⟩ := Relation.TransGen.head'_iff.1 hcycle
    have := hnext.eq_of_aliases ha
    rw [hd] at this
    cases this
  | linked ha hd =>
    intro hcycle
    obtain ⟨next, hnext, -⟩ := Relation.TransGen.head'_iff.1 hcycle
    have := hnext.eq_of_aliases ha
    rw [hd] at this
    cases this
  | @next name t r next leaf ha hd hc ih =>
    intro hcycle
    obtain ⟨next', hnext, hrest⟩ := Relation.TransGen.head'_iff.1 hcycle
    -- the only way out of `name` is to `next`, so `next` is on the cycle as well
    have heq := hnext.eq_of_aliases ha
    obtain rfl := Named.typedef.inj (Option.some.inj (hd.symm.trans heq))
    exact ih (Relation.TransGen.tail' hrest hnext)

section Extent

variable (h : s.Sound) (hplain : s.PlainTypedefs)

include h hplain

theorem Aliases.plain (ha : s.Aliases name t r) :
    r.isIndirect = false ∧ r.elementCount = none ∧ s.Unscoped r.base t.space := by
  have hmem : t ∈ s.typedefs.values := by
    have hentry := Table.mem_entries_of_find? ha.typedef
    rw [h.typedefIndex] at hentry
    obtain ⟨e, he, heq⟩ := List.mem_map.1 hentry
    obtain ⟨-, rfl⟩ := Prod.mk.inj heq
    exact List.mem_map_of_mem he
  obtain ⟨hindirect, harray, hunscoped⟩ := hplain t hmem r ha.target
  exact ⟨hindirect, by rw [Reference.elementCount, harray]; rfl, hunscoped⟩

/-- What a layout reads from one typedef. -/
theorem Aliases.sizeLink_eq (ha : s.Aliases name t r) : s.layoutInput.sizeLink name =
    match s.declared? r.base t.space with
    | some (.typedef next) => .next next none
    | some (.type id) => .leaf (.type id) none
    | none => if r.leaf = .unsized then .deadEnd else .leaf r.leaf none := by
  obtain ⟨hindirect, hcount, hunscoped⟩ := ha.plain h hplain
  have hfind := h.layout_find? hunscoped
  rw [Reference.base] at hfind ⊢
  simp only [LayoutInput.sizeLink, h.layout_typedefs, ha.typedef,
    h.layout_typedefTarget ha.typedef, ha.target, hindirect, hcount, hfind, Bool.false_eq_true,
    if_false]
  rcases s.declared? (Declarator.parse r.typeString).canonicalBase t.space with _ | _ | _
  · rw [Reference.leaf]
    rcases r.target with _ | id
    · cases (Declarator.parse r.typeString).primitive <;> simp
    · simp
  · rfl
  · rfl

omit hplain in
theorem exists_aliases (hlink : s.layoutInput.sizeLink name ≠ .deadEnd) :
    ∃ t r, s.Aliases name t r := by
  rw [LayoutInput.sizeLink, h.layout_typedefs] at hlink
  cases ht : s.typedefIndex.find? name with
  | none => simp [ht] at hlink
  | some t =>
    simp only [ht, h.layout_typedefTarget ht] at hlink
    cases hr : s.references.find? t.target with
    | none => simp [hr] at hlink
    | some r => exact ⟨t, r, ht, hr⟩

/-- **A layout finds what a typedef comes to**, as long as the walk has not met the names ahead. -/
theorem Comes.extent (hc : s.Comes name leaf) : ∀ visited : List String,
    (∀ v ∈ visited, ¬Relation.ReflTransGen s.Next name v) →
      (s.layoutInput.typedefExtent visited name).extent = some ⟨leaf, []⟩ := by
  induction hc with
  | type ha hd =>
    intro visited hv
    have hlink := ha.sizeLink_eq h hplain
    rw [hd] at hlink
    rw [LayoutInput.typedefExtent_of_leaf (fun hmem => hv _ hmem .refl) hlink]
    rfl
  | linked ha hd hleaf =>
    intro visited hv
    have hlink := ha.sizeLink_eq h hplain
    simp only [hd, hleaf, if_false] at hlink
    rw [LayoutInput.typedefExtent_of_leaf (fun hmem => hv _ hmem .refl) hlink]
    rfl
  -- what comes to something is on no cycle, so `next` leads back to no name behind it
  | @next name t r next leaf ha hd hc ih =>
    intro visited hv
    have hlink := ha.sizeLink_eq h hplain
    rw [hd] at hlink
    have hnext : s.Next name next := ⟨t, r, ha, hd⟩
    rw [LayoutInput.typedefExtent_of_next (fun hmem => hv _ hmem .refl) hlink, ih]
    · rfl
    · intro v hmem hreach
      rcases List.mem_cons.1 hmem with rfl | hmem
      · exact (Comes.next ha hd hc).not_transGen (.head' hnext hreach)
      · exact hv v hmem (.head hnext hreach)

theorem comes_of_extent {visited : List String} {e : Extent}
    (he : (s.layoutInput.typedefExtent visited name).extent = some e) :
    ∃ leaf, e = ⟨leaf, []⟩ ∧ s.Comes name leaf := by
  -- along the walk: a walk that finds something has ended at a leaf
  fun_induction LayoutInput.typedefExtent s.layoutInput visited name generalizing e with
  | case1 => cases he
  | case2 => cases he
  | case3 visited name hv leaf count hlink =>
    obtain ⟨t, r, ha⟩ := exists_aliases h (by rw [hlink]; simp)
    rw [ha.sizeLink_eq h hplain] at hlink
    split at hlink
    · cases hlink
    · next id hd =>
      obtain ⟨rfl, rfl⟩ := SizeLink.leaf.inj hlink
      exact ⟨_, (Option.some.inj he).symm, .type ha hd⟩
    · next hd =>
      split at hlink
      · cases hlink
      · next hleaf =>
        obtain ⟨rfl, rfl⟩ := SizeLink.leaf.inj hlink
        exact ⟨_, (Option.some.inj he).symm, .linked ha hd hleaf⟩
  | case4 visited name hv next count hlink rest =>
    rename_i ih
    obtain ⟨e', he', rfl⟩ := Option.map_eq_some_iff.1 he
    obtain ⟨leaf, rfl, hc⟩ := ih he'
    obtain ⟨t, r, ha⟩ := exists_aliases h (by rw [hlink]; simp)
    rw [ha.sizeLink_eq h hplain] at hlink
    split at hlink
    · next next' hd =>
      obtain ⟨rfl, rfl⟩ := SizeLink.next.inj hlink
      exact ⟨leaf, rfl, .next ha hd hc⟩
    · cases hlink
    · split at hlink <;> cases hlink

/-- **The walk of a layout finds what a typedef comes to, and nothing else.** -/
theorem extent_iff {e : Extent} : (s.layoutInput.typedefExtent [] name).extent = some e ↔
    ∃ leaf, e = ⟨leaf, []⟩ ∧ s.Comes name leaf := by
  refine ⟨comes_of_extent h hplain, ?_⟩
  rintro ⟨leaf, rfl, hc⟩
  exact hc.extent h hplain [] (by simp)

end Extent

end Store

end DeclGraph
