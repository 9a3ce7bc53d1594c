import DeclGraph.Proofs.AliasChains
import DeclGraph.Proofs.ResolutionPass

/-!
# Names that resolution and layout read alike

Where a typedef of an inner scope has the name of a type further out, or that of a primitive, the
resolution pass takes the type or the primitive and a layout the typedef. Without such typedefs both
read a name alike, and a typedef comes in the layout to what the pass has resolved it to.

* `Store.Unhidden`: a type string whose name no typedef hides.
* `Store.Clear`: a typedef with nothing hidden on its chain.
* `Store.Clear.comes`: what the pass finds for a reference is what the layout finds.
-/

namespace DeclGraph

open Name

namespace Store

variable {s s' : Store} {name scope c : String} {id : TypeId}

/-! ## Declarations in scopes -/

theorem declared?_of_no_type (hnone : ∀ n ∈ readings scope name, s.byName.find? n = none) :
    s.declared? name scope =
      ((readings scope name).find? s.typedefIndex.contains).map .typedef := by
  rw [declared?]
  generalize readings scope name = names at hnone
  induction names with
  | nil => rfl
  | cons n names ih =>
    rw [List.forall_mem_cons] at hnone
    rw [List.findSome?_cons, List.find?_cons, named?, hnone.1]
    cases hn : s.typedefIndex.contains n with
    | true => simp
    | false => simpa using ih hnone.2

theorem findSome?_of_declared? (hd : s.declared? name scope = some (.type id)) :
    (readings scope name).findSome? s.byName.find? = some id := by
  rw [declared?] at hd
  generalize readings scope name = names at hd
  induction names with
  | nil => cases hd
  | cons n names ih =>
    rw [List.findSome?_cons, named?] at hd
    rw [List.findSome?_cons]
    cases hn : s.byName.find? n with
    | some id' =>
      simp only [hn, Option.some.injEq, Named.type.injEq] at hd
      rw [hd]
    | none =>
      simp only [hn] at hd
      split at hd
      · next hsome =>
        split at hsome
        · obtain rfl := Option.some.inj hsome
          cases hd
        · cases hsome
      · exact ih hd

theorem findSome?_of_declared?_eq_none (hd : s.declared? name scope = none) :
    (readings scope name).findSome? s.byName.find? = none := by
  rw [declared?, List.findSome?_eq_none_iff] at hd
  refine List.findSome?_eq_none_iff.2 fun n hn => ?_
  have hn := hd n hn
  rw [named?] at hn
  split at hn
  · cases hn
  · next hnone => exact hnone

/-- If a typedef is what the name of a type string is declared as, then it has not the name of a
primitive and hides no type. -/
def Unhidden (s : Store) (typeString scope : String) : Prop :=
  ∀ c, s.declared? (Declarator.parse typeString).canonicalBase scope = some (.typedef c) →
    (Declarator.parse typeString).isPrimitiveLeaf = false ∧
      ∀ n ∈ readings scope (Declarator.parse typeString).canonicalBase, s.byName.find? n = none

/-- The first type that is found in all scopes is what the name is declared as. -/
theorem Unhidden.declared? {typeString : String} (h : s.Unhidden typeString scope)
    (hid : (readings scope (Declarator.parse typeString).canonicalBase).findSome? s.byName.find? =
      some id) :
    s.declared? (Declarator.parse typeString).canonicalBase scope = some (.type id) := by
  cases hd : s.declared? (Declarator.parse typeString).canonicalBase scope with
  | none =>
    rw [findSome?_of_declared?_eq_none hd] at hid
    cases hid
  | some found =>
    cases found with
    | type id' =>
      rw [findSome?_of_declared? hd, Option.some.injEq] at hid
      rw [hid]
    | typedef c =>
      obtain ⟨n, hn, hfind⟩ := List.exists_of_findSome?_eq_some hid
      rw [(h c hd).2 n hn] at hfind
      cases hfind

/-- The next typedef that is found in all scopes is what the name is declared as, unless there are
types. -/
theorem declared?_of_next (htypes : (readings scope name).findSome? s.byName.find? = none)
    (hnext : (readings scope name).find? s.typedefIndex.contains = some c) :
    s.declared? name scope = some (.typedef c) := by
  rw [declared?_of_no_type (List.findSome?_eq_none_iff.1 htypes), hnext, Option.map_some]

/-! ## Chains -/

/-- What an unresolved target says in a chain. -/
theorem Aliases.link_eq {t : Typedef} {r : Reference} (h : s.Aliases name t r)
    (hnone : r.resolution = none) : s.lookup.link name =
      match (readings t.space r.base).findSome? s.byName.find? with
      | some id => .settled (r.apply (.type id))
      | none =>
        if (Declarator.parse r.typeString).isPrimitiveLeaf then .settled (r.apply .primitive)
        else match (readings t.space r.base).find? s.typedefIndex.contains with
          | some next => .next next
          | none => .deadEnd := by
  rw [Reference.base]
  cases htype : (readings t.space (Declarator.parse r.typeString).canonicalBase).findSome?
      s.byName.find? with
  | some id => simp [Lookup.link, lookup, h.typedef, h.target, hnone, htype]
  | none =>
    cases hnext : (readings t.space (Declarator.parse r.typeString).canonicalBase).find?
      s.typedefIndex.contains <;>
        simp [Lookup.link, lookup, h.typedef, h.target, hnone, htype, hnext]

theorem exists_aliases_of_link (h : s.lookup.link name ≠ .deadEnd) :
    ∃ t r, s.Aliases name t r := by
  rw [Lookup.link] at h
  cases ht : s.lookup.typedefs.find? name with
  | none => simp [ht] at h
  | some t =>
    simp only [ht] at h
    cases hr : s.lookup.reference? t.target with
    | none => simp [hr] at h
    | some r => exact ⟨t, r, ht, hr⟩

/-- The typedefs on the chain from `c` have unresolved targets, whose names no typedef hides. -/
def ClearChain (s : Store) (c : String) : Prop :=
  ∀ c', Relation.ReflTransGen s.Next c c' → ∀ t r, s.Aliases c' t r →
    r.resolution = none ∧ s.Unhidden r.typeString t.space

/-- A store with the same declarations, the strings of references included. -/
structure Redeclares (s s' : Store) : Prop where
  declared? : ∀ name scope, s'.declared? name scope = s.declared? name scope
  aliases : ∀ {name t r}, s.Aliases name t r →
    ∃ r', s'.Aliases name t r' ∧ r'.typeString = r.typeString

/-- **A chain that ends in a type comes to this type in a layout**, if nothing is hidden on it. -/
theorem Redeclares.comes (hsame : s.Redeclares s')
    {visited : List String} {r : Reference} (hclear : s.ClearChain c)
    (hr : (s.lookup.walk visited c).target = some r) (hid : r.resolution = some (.type id)) :
    s'.Comes c (.type id) := by
  have hbase : ∀ {r r' : Reference}, r'.typeString = r.typeString → r'.base = r.base := by
    intro r r' heq
    rw [Reference.base, Reference.base, heq]
  -- along the walk of the chain, which is in the older store
  fun_induction Lookup.walk s.lookup visited c with
  | case1 => cases hr
  | case2 visited name _ target hl =>
    obtain rfl := Option.some.inj hr
    obtain ⟨t, r₀, ha⟩ := exists_aliases_of_link (by rw [hl]; simp)
    obtain ⟨hnone, hunhidden⟩ := hclear name .refl t r₀ ha
    obtain ⟨r₁, ha₁, htext⟩ := hsame.aliases ha
    rw [ha.link_eq hnone] at hl
    split at hl
    · next id' hid' =>
      obtain rfl := Link.settled.inj hl
      obtain rfl : id' = id := Resolution.type.inj (Option.some.inj hid)
      refine .type ha₁ ?_
      rw [hsame.declared?, hbase htext]
      exact hunhidden.declared? hid'
    · split at hl
      -- a primitive is no type
      · obtain rfl := Link.settled.inj hl
        have htarget : (r₀.apply .primitive).target = some id := target_of_resolution hid
        change r₀.target = some id at htarget
        rw [Reference.resolution, htarget] at hnone
        cases hnone
      · split at hl <;> cases hl
  | case3 => cases hr
  | case4 visited name _ next hl ih =>
    obtain ⟨t, r₀, ha⟩ := exists_aliases_of_link (by rw [hl]; simp)
    obtain ⟨hnone, -⟩ := hclear name .refl t r₀ ha
    obtain ⟨r₁, ha₁, htext⟩ := hsame.aliases ha
    rw [ha.link_eq hnone] at hl
    split at hl
    · cases hl
    · next htypes =>
      split at hl
      · cases hl
      · split at hl
        · next next' hnext =>
          obtain rfl := Link.next.inj hl
          have hd := declared?_of_next htypes hnext
          have hstep : s.Next name next' := ⟨t, r₀, ha, hd⟩
          refine .next ha₁ ?_ (ih (fun c' hc' => hclear c' (.head hstep hc')) hr)
          rw [hsame.declared?, hbase htext, hd]
        · cases hl

/-! ## Resolution -/

theorem alias?_of_not_contains (h : s.typedefIndex.contains name = false) :
    s.alias? name = none := by
  have hlink : s.lookup.link name = .deadEnd := by
    have hfind : s.typedefIndex.find? name = none := by
      rw [Table.find?_eq_none_iff, ← Table.contains_iff, h]
      exact Bool.false_ne_true
    simp only [Lookup.link, lookup, hfind]
  rw [alias?, Lookup.walk_of_deadEnd List.not_mem_nil hlink]
  rfl

theorem findSome?_alias? {names : List String} (hc : names.find? s.typedefIndex.contains = some c)
    (hends : s.alias? c ≠ none) : names.findSome? s.alias? = s.alias? c := by
  obtain ⟨found, hfound⟩ := Option.ne_none_iff_exists'.1 hends
  induction names with
  | nil => cases hc
  | cons n names ih =>
    rw [List.find?_cons] at hc
    rw [List.findSome?_cons]
    cases hn : s.typedefIndex.contains n with
    | true =>
      simp only [hn, Option.some.injEq] at hc
      subst hc
      rw [hfound]
    | false =>
      simp only [hn] at hc
      rw [alias?_of_not_contains hn]
      exact ih hc

/-- The pass has taken up a reference whose canonical name is that of the typedef `c`, and there is
nothing hidden on the way to the end of its chain. -/
structure Clear (s : Store) (u : Unresolved) (c : String) : Prop where
  taken : u ∈ s.unresolvedReferences
  named : u.reference.base ≠ ""
  canonical : Text.onChars Text.trim (Declarator.parse u.reference.typeString).base =
    u.reference.base
  unhidden : s.Unhidden u.reference.typeString u.scope
  ends : s.alias? c ≠ none
  chain : s.ClearChain c

variable {u : Unresolved}

theorem Clear.resolution?_eq (hclear : s.Clear u c)
    (hd : s.declared? u.reference.base u.scope = some (.typedef c)) :
    s.resolution? u.reference.typeString u.scope = s.alias? c := by
  obtain ⟨hprimitive, hnone⟩ := hclear.unhidden c hd
  have hnames : (Request.make u.reference.typeString u.scope).namesFor
      (Declarator.parse u.reference.typeString).base = readings u.scope u.reference.base := by
    simp only [Request.namesFor, Request.make, hclear.canonical, if_neg hclear.named]
  have htype : s.typeNamed (.make u.reference.typeString u.scope)
      (Declarator.parse u.reference.typeString).base = none := by
    rw [typeNamed, hnames, Option.map_eq_none_iff, List.findSome?_eq_none_iff]
    intro n hn
    have hn' : s.byName.find? n = none := hnone n hn
    rw [typeByName?, hn', Option.bind_none]
  have hfind : (readings u.scope u.reference.base).find? s.typedefIndex.contains = some c := by
    obtain ⟨c', hc', heq⟩ := Option.map_eq_some_iff.1 ((declared?_of_no_type hnone).symm.trans hd)
    exact hc'.trans (congrArg some (Named.typedef.inj heq))
  have halias : s.aliasNamed (.make u.reference.typeString u.scope)
      (Declarator.parse u.reference.typeString).base = s.alias? c := by
    rw [aliasNamed, hnames, findSome?_alias? hfind hclear.ends]
  obtain ⟨found, hfound⟩ := Option.ne_none_iff_exists'.1 hclear.ends
  -- the strategies before typedefs find nothing: the name is neither a primitive nor a type
  rw [Store.resolution?_eq, Strategy.all, List.findSome?_cons, List.findSome?_cons,
    List.findSome?_cons]
  simp only [found?, Request.make, hprimitive, Bool.false_eq_true, if_false]
  rw [← Request.make, htype, halias, hfound]

section Pass

variable (h : s.Sound) (hstaged : s.staged = {})

include h hstaged

theorem redeclares_resolved : s.Redeclares s.resolved where
  declared? name scope := by
    rw [declared?, declared?, resolved_eq h hstaged]
    rfl
  aliases := by
    intro name t r ha
    obtain ⟨r', hr', hkept, -⟩ :=
      h.find?_resolved hstaged (h.find?_created_shared hstaged ha.target)
    refine ⟨r', ⟨?_, hr'⟩, ?_⟩
    · rw [(h.further_resolved hstaged).typedefIndex]
      exact ha.typedef
    · rcases hkept with rfl | ⟨-, w, rfl⟩
      · rfl
      · cases w <;> rfl

/-- **What the pass links a reference to is what its typedef comes to in a layout.** -/
theorem Clear.comes (hclear : s.Clear u c)
    (hd : s.declared? u.reference.base u.scope = some (.typedef c)) {r : Reference}
    (hr : s.resolved.references.find? u.reference.id = some r)
    (hid : r.resolution = some (.type id)) : s.resolved.Comes c (.type id) := by
  obtain ⟨found, hfound⟩ := Option.ne_none_iff_exists'.1 hclear.ends
  have hmeans := hclear.resolution?_eq hd
  rw [h.find?_resolved_of_found hstaged hclear.taken (hmeans.trans hfound), Option.some.injEq] at hr
  have hopen := (h.find?_unresolved hclear.taken).2
  -- the reference had no target, so its target is what was found
  have hfound' : found = .type id := by
    subst hr
    cases found with
    | type id' => exact congrArg _ (Option.some.inj (target_of_resolution hid))
    | primitive =>
      have htarget : (u.reference.apply .primitive).target = some id := target_of_resolution hid
      change u.reference.target = some id at htarget
      rw [Reference.resolution, htarget] at hopen
      cases hopen
  rw [hfound', alias?, Option.bind_eq_some_iff] at hfound
  obtain ⟨r', hr', hid'⟩ := hfound
  exact (redeclares_resolved h hstaged).comes hclear.chain hr' hid'

end Pass

end Store

end DeclGraph
