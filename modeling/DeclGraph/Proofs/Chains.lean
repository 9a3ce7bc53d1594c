import DeclGraph.Proofs.Representation
import DeclGraph.Resolve.Strategy

/-!
# Chains before and after a pass

A typedef whose target is resolved ends a chain, so a chain may be shorter in a store that has been
resolved further. What a type string means changes with it only if its chains meet such a typedef.

* `Store.resolution?_eq`: what a type string means, as one expression.
* `Store.Further`: a store with the same declarations, and more of them resolved.
* `Store.Further.alias?_eq`: a chain that meets no new resolution comes to the same.
* `Store.Further.resolution?_ne_none_iff`: a type string that meant nothing comes to mean something
  exactly if one of its chains meets a new resolution.
-/

namespace DeclGraph

open Name

theorem findSome?_congr {α β : Type} {f g : α → Option β} {as : List α}
    (h : ∀ a ∈ as, f a = g a) : as.findSome? f = as.findSome? g := by
  induction as with
  | nil => rfl
  | cons a as ih =>
    rw [List.forall_mem_cons] at h
    rw [List.findSome?_cons, List.findSome?_cons, h.1, ih h.2]

namespace Lookup

variable {l : Lookup} {visited : List String} {name : String}

theorem walk_of_mem (hv : name ∈ visited) : l.walk visited name = ⟨none, visited, some name⟩ := by
  rw [walk, dif_pos hv]

theorem walk_of_settled (hv : name ∉ visited) {target : Reference}
    (hl : l.link name = .settled target) :
    l.walk visited name = ⟨some target, name :: visited, none⟩ := by
  rw [walk, dif_neg hv]
  split <;> simp_all

theorem walk_of_deadEnd (hv : name ∉ visited) (hl : l.link name = .deadEnd) :
    l.walk visited name = ⟨none, name :: visited, none⟩ := by
  rw [walk, dif_neg hv]
  split <;> simp_all

theorem walk_of_next (hv : name ∉ visited) {next : String} (hl : l.link name = .next next) :
    l.walk visited name = l.walk (name :: visited) next := by
  rw [walk, dif_neg hv]
  split <;> simp_all

end Lookup

namespace Store

variable (s : Store)

/-- What a name stands for as a typedef, at the end of its chain. -/
def alias? (name : String) : Option Resolution := (s.lookup.walk [] name).target.bind (·.resolution)

/-- What the first of some names that stands for anything as a typedef stands for. -/
def aliasNamed (r : Request) (name : String) : Option Resolution :=
  (r.namesFor name).findSome? s.alias?

/-- The only type with a base name. -/
def onlyNamed? (name : String) : Option Resolution :=
  match s.typesByBaseName name with
  | [only] => some (.type only.id)
  | _ => none

theorem value_follow (l : Lookup) (name : String) :
    (l.follow [] name).value = ((l.walk [] name).target, (l.walk [] name).visited) := by
  rw [Lookup.follow]
  split <;> rfl

theorem value_followFirst (names : List String) :
    (s.followFirst names).value = names.findSome? s.alias? := by
  induction names with
  | nil => rfl
  | cons name names ih =>
    rw [followFirst, Noted.value_bind, value_follow, List.findSome?_cons, alias?]
    cases h : (s.lookup.walk [] name).target.bind (·.resolution) with
    | none => simpa only [h] using ih
    | some found => simp only [h, Noted.value_pure]

theorem value_eitherNamed (r : Request) (name : String) :
    (s.eitherNamed r name).value = (s.typeNamed r name).or (s.aliasNamed r name) := by
  rw [eitherNamed]
  cases s.typeNamed r name with
  | none => rw [typedefNamed, value_followFirst, aliasNamed, Option.none_or]
  | some found => rfl

theorem value_onlyNamed (r : Request) (name : String) :
    (s.onlyNamed r name).value = s.onlyNamed? name := by
  rw [onlyNamed, onlyNamed?]
  rcases s.typesByBaseName name with _ | ⟨_, _ | _⟩ <;> rfl

/-- What one strategy finds, without what it notes. -/
def found? (r : Request) : Strategy → Option Resolution
  | .primitive => if r.declarator.isPrimitiveLeaf then some .primitive else none
  | .exact => s.typeNamed r r.declarator.base
  | .typedef => s.aliasNamed r r.declarator.base
  | .bareName => ((s.typeNamed r r.declarator.bareName).or
      (s.aliasNamed r r.declarator.bareName)).or (s.onlyNamed? (lastSegment r.declarator.bareName))
  | .canonical => (s.typeNamed r r.declarator.canonicalBase).or
      (s.aliasNamed r r.declarator.canonicalBase)

theorem value_tryStrategy (r : Request) (strategy : Strategy) :
    (s.tryStrategy r strategy).value = s.found? r strategy := by
  cases strategy with
  | primitive => rfl
  | exact => rw [tryStrategy, Noted.value_pure, found?]
  | typedef => rw [tryStrategy, typedefNamed, value_followFirst, found?, aliasNamed]
  | bareName =>
    rw [tryStrategy, Noted.value_bind, value_eitherNamed, found?]
    cases (s.typeNamed r r.declarator.bareName).or (s.aliasNamed r r.declarator.bareName) with
    | none => exact s.value_onlyNamed r _
    | some found => rfl
  | canonical => rw [tryStrategy, value_eitherNamed, found?]

/-- **What a type string means is what the first strategy finds that finds anything.** -/
theorem resolution?_eq (typeString scope : String) : s.resolution? typeString scope =
    Strategy.all.findSome? (s.found? (.make typeString scope)) := by
  rw [resolution?, winner]
  generalize Strategy.all = strategies
  induction strategies with
  | nil => rfl
  | cons strategy rest ih =>
    rw [firstStrategy, Noted.value_bind, value_tryStrategy, List.findSome?_cons]
    cases s.found? (.make typeString scope) strategy with
    | none => exact ih
    | some found => rfl

/-! ## How a chain ends -/

/-- A chain is settled by a target that is resolved, or by one that names a type or a primitive. -/
theorem link_settled {l : Lookup} {name : String} {r : Reference} (h : l.link name = .settled r) :
    ∃ t target, l.typedefs.find? name = some t ∧ l.reference? t.target = some target ∧
      (r = target ∧ target.resolution.isSome = true ∨
        target.resolution = none ∧
          ((∃ n id, l.type? n = some id ∧ r = target.apply (.type id)) ∨
            r = target.apply .primitive)) := by
  unfold Lookup.link at h
  cases ht : l.typedefs.find? name with
  | none => simp [ht] at h
  | some t =>
    cases hr : l.reference? t.target with
    | none => simp [ht, hr] at h
    | some target =>
      refine ⟨t, target, rfl, hr, ?_⟩
      simp only [ht, hr] at h
      by_cases hsome : target.resolution.isSome = true
      · rw [if_pos hsome] at h
        exact .inl ⟨(Link.settled.inj h).symm, hsome⟩
      · rw [if_neg hsome] at h
        refine .inr ⟨Option.not_isSome_iff_eq_none.1 hsome, ?_⟩
        split at h
        · next id hid =>
          obtain ⟨n, -, hn⟩ := List.exists_of_findSome?_eq_some hid
          exact .inl ⟨n, id, hn, (Link.settled.inj h).symm⟩
        · split at h
          · exact .inr (Link.settled.inj h).symm
          · split at h <;> cases h

theorem isSome_resolution_of_link {l : Lookup} {name : String} {r : Reference}
    (h : l.link name = .settled r) : r.resolution.isSome = true := by
  obtain ⟨-, target, -, -, ⟨rfl, hsome⟩ | ⟨-, ⟨-, -, -, rfl⟩ | rfl⟩⟩ := link_settled h
  · exact hsome
  · exact Reference.isSome_resolution_apply _ _
  · exact Reference.isSome_resolution_apply _ _

/-- What a chain comes to is what its last typedef says. -/
theorem exists_link_of_walk {l : Lookup} {visited : List String} {name : String} {r : Reference}
    (h : (l.walk visited name).target = some r) : ∃ n, l.link n = .settled r := by
  fun_induction Lookup.walk l visited name with
  | case1 => cases h
  | case2 _ name _ target hl => exact ⟨name, hl.trans (congrArg _ (Option.some.inj h))⟩
  | case3 => cases h
  | case4 _ _ _ _ _ ih => exact ih h

theorem target_of_resolution {r : Reference} {t : TypeId}
    (h : r.resolution = some (.type t)) : r.target = some t := by
  rw [Reference.resolution] at h
  cases hr : r.target with
  | none =>
    rw [hr] at h
    simp only at h
    split at h <;> cases h
  | some t' =>
    rw [hr] at h
    rw [Resolution.type.inj (Option.some.inj h)]

/-! ## What is found exists -/

section Exists

variable {s : Store} (h : s.Sound)

include h

theorem Sound.mem_types_of_typeByName? {name : String} {n : DeclaredType}
    (hn : s.typeByName? name = some n) : n.id ∈ s.types.keys := by
  obtain ⟨id, -, hid⟩ := Option.bind_eq_some_iff.1 hn
  rw [h.typeId _ (Table.mem_entries_of_find? hid)]
  exact Table.mem_keys_of_find? hid

theorem Sound.mem_types_of_byName {name : String} {id : TypeId}
    (hid : s.byName.find? name = some id) : id ∈ s.types.keys := by
  have hmem := Table.mem_entries_of_find? hid
  rw [h.byName] at hmem
  obtain ⟨e, he, heq⟩ := List.mem_map.1 hmem
  obtain ⟨-, rfl⟩ := Prod.mk.inj heq
  exact List.mem_map_of_mem he

theorem Sound.mem_types_of_alias? {name : String} {t : TypeId}
    (hfound : s.alias? name = some (.type t)) : t ∈ s.types.keys := by
  obtain ⟨r, hr, hres⟩ := Option.bind_eq_some_iff.1 hfound
  obtain ⟨n, hl⟩ := exists_link_of_walk hr
  have htarget := target_of_resolution hres
  obtain ⟨typedef, target, -, hfind, ⟨rfl, -⟩ | ⟨hnone, ⟨m, id, hid, rfl⟩ | rfl⟩⟩ := link_settled hl
  · exact h.referenceTarget _ (Table.mem_entries_of_find? hfind) t htarget
  · obtain rfl : id = t := Option.some.inj htarget
    exact h.mem_types_of_byName hid
  · exact h.referenceTarget _ (Table.mem_entries_of_find? hfind) t htarget

/-- **A type string means a type only if the type exists.** -/
theorem Sound.mem_types_of_resolution? {typeString scope : String} {t : TypeId}
    (hfound : s.resolution? typeString scope = some (.type t)) : t ∈ s.types.keys := by
  have htype : ∀ r name, s.typeNamed r name = some (.type t) → t ∈ s.types.keys := by
    intro r name hname
    obtain ⟨n, hn, heq⟩ := Option.map_eq_some_iff.1 hname
    obtain rfl := Resolution.type.inj heq
    obtain ⟨m, -, hm⟩ := List.exists_of_findSome?_eq_some hn
    exact h.mem_types_of_typeByName? hm
  have halias : ∀ r name, s.aliasNamed r name = some (.type t) → t ∈ s.types.keys := by
    intro r name hname
    obtain ⟨n, -, hn⟩ := List.exists_of_findSome?_eq_some hname
    exact h.mem_types_of_alias? hn
  rw [resolution?_eq] at hfound
  obtain ⟨strategy, -, hstrategy⟩ := List.exists_of_findSome?_eq_some hfound
  cases strategy with
  | primitive =>
    simp only [found?] at hstrategy
    split at hstrategy <;> cases hstrategy
  | exact =>
    rw [found?] at hstrategy
    exact htype _ _ hstrategy
  | typedef =>
    rw [found?] at hstrategy
    exact halias _ _ hstrategy
  | bareName =>
    simp only [found?, Option.or_eq_some_iff] at hstrategy
    rcases hstrategy with (h₁ | ⟨-, h₁⟩) | ⟨-, h₁⟩
    · exact htype _ _ h₁
    · exact halias _ _ h₁
    · rw [onlyNamed?] at h₁
      split at h₁
      · next only honly =>
        obtain rfl := Resolution.type.inj (Option.some.inj h₁)
        have hmem : only ∈ s.typesByBaseName
            (lastSegment (Request.make typeString scope).declarator.bareName) := by
          rw [honly]
          exact List.mem_cons_self
        obtain ⟨id, -, hid⟩ := List.mem_filterMap.1 hmem
        rw [h.typeId _ (Table.mem_entries_of_find? hid)]
        exact Table.mem_keys_of_find? hid
      · cases h₁
  | canonical =>
    simp only [found?, Option.or_eq_some_iff] at hstrategy
    rcases hstrategy with h₁ | ⟨-, h₁⟩
    · exact htype _ _ h₁
    · exact halias _ _ h₁

end Exists

/-! ## Further resolution -/

/-- The typedef `name` has a target that `s` has left unresolved and `s'` has resolved. -/
def Settles (s s' : Store) (name : String) : Prop :=
  ∃ t r r', s.typedefIndex.find? name = some t ∧ s.references.find? t.target = some r ∧
    r.resolution = none ∧ s'.references.find? t.target = some r' ∧ r'.resolution.isSome = true

/-- The store `s'` has the declarations of `s`, and the targets of its typedefs are those of `s` or
have been resolved. -/
structure Further (s s' : Store) : Prop where
  types : s'.types = s.types
  byName : s'.byName = s.byName
  byBaseName : s'.byBaseName = s.byBaseName
  typedefIndex : s'.typedefIndex = s.typedefIndex
  target : ∀ name t, s.typedefIndex.find? name = some t →
    s'.references.find? t.target = s.references.find? t.target ∨ s.Settles s' name

/-- The names whose chains decide what a type string means. -/
def aliasesOf (r : Request) : List String :=
  r.namesFor r.declarator.base ++ r.namesFor r.declarator.bareName ++
    r.namesFor r.declarator.canonicalBase

/-- A chain on which the meaning of a type string depends meets a typedef that `s'` has resolved. -/
def Awaits (s s' : Store) (typeString scope : String) : Prop :=
  ∃ name ∈ aliasesOf (.make typeString scope), ∃ n ∈ (s.lookup.walk [] name).visited,
    s.Settles s' n

namespace Further

variable {s s' : Store} (h : s.Further s')

include h

/-- A typedef says the same as before, unless its target has been resolved meanwhile. -/
theorem link (name : String) : s'.lookup.link name = s.lookup.link name ∨
    s.Settles s' name ∧ ∃ r, s'.lookup.link name = .settled r := by
  cases ht : s.typedefIndex.find? name with
  | none =>
    left
    simp only [Lookup.link, lookup, h.typedefIndex, ht]
  | some t =>
    rcases h.target name t ht with hsame | hsettles
    · left
      simp only [Lookup.link, lookup, h.typedefIndex, h.byName, ht, hsame]
    · obtain ⟨t', r, r', ht', hr, hnone, hr', hsome⟩ := hsettles
      obtain rfl := Option.some.inj (ht.symm.trans ht')
      refine .inr ⟨⟨t, r, r', ht, hr, hnone, hr', hsome⟩, r', ?_⟩
      simp only [Lookup.link, lookup, h.typedefIndex, ht, hr', hsome, if_true]

/-- A chain that meets no new resolution is the same. -/
theorem walk_eq {visited : List String} {name : String}
    (hnone : ∀ n ∈ (s.lookup.walk visited name).visited, n ∈ visited ∨ ¬s.Settles s' n) :
    s'.lookup.walk visited name = s.lookup.walk visited name := by
  -- along the walk in `s`: the two stores say the same of each name that it visits
  fun_induction Lookup.walk s.lookup visited name with
  | case1 visited name hv => exact Lookup.walk_of_mem hv
  | case2 visited name hv target hl =>
    have hname := (hnone name (by simp)).resolve_left hv
    have hsame := (h.link name).resolve_right fun hs => hname hs.1
    exact Lookup.walk_of_settled hv (hsame.trans hl)
  | case3 visited name hv hl =>
    have hname := (hnone name (by simp)).resolve_left hv
    have hsame := (h.link name).resolve_right fun hs => hname hs.1
    exact Lookup.walk_of_deadEnd hv (hsame.trans hl)
  | case4 visited name hv next hl ih =>
    have hmem : name ∈ (s.lookup.walk (name :: visited) next).visited :=
      s.lookup.walk_visited _ _ (by simp)
    have hname := (hnone name hmem).resolve_left hv
    have hsame := (h.link name).resolve_right fun hs => hname hs.1
    rw [Lookup.walk_of_next hv (hsame.trans hl)]
    refine ih fun n hn => ?_
    rcases hnone n hn with hvisited | hns
    · exact .inl (List.mem_cons_of_mem _ hvisited)
    · exact .inr hns

/-- A chain that meets a new resolution comes to something. -/
theorem exists_target {visited : List String} {name n : String}
    (hn : n ∈ (s.lookup.walk visited name).visited) (hv : n ∉ visited) (hs : s.Settles s' n) :
    ∃ r, (s'.lookup.walk visited name).target = some r ∧ r.resolution.isSome = true := by
  have hsettled : ∀ {visited name r}, name ∉ visited → s'.lookup.link name = .settled r →
      ∃ r, (s'.lookup.walk visited name).target = some r ∧ r.resolution.isSome = true :=
    fun {visited name r} hv hl =>
      ⟨r, by rw [Lookup.walk_of_settled hv hl], isSome_resolution_of_link hl⟩
  have hlink : s.Settles s' n → ∃ r, s'.lookup.link n = .settled r := by
    rintro ⟨t, r, r', ht, -, -, hr', hsome⟩
    refine ⟨r', ?_⟩
    simp only [Lookup.link, lookup, h.typedefIndex, ht, hr', hsome, if_true]
  fun_induction Lookup.walk s.lookup visited name with
  | case1 visited name _ => exact absurd hn hv
  | case2 visited name hname target hl =>
    obtain rfl := (List.mem_cons.1 hn).resolve_right hv
    obtain ⟨r, hr⟩ := hlink hs
    exact hsettled hv hr
  | case3 visited name hname hl =>
    obtain rfl := (List.mem_cons.1 hn).resolve_right hv
    obtain ⟨r, hr⟩ := hlink hs
    exact hsettled hv hr
  -- the walks part at the first typedef that is settled in `s'` only
  | case4 visited name hname next hl ih =>
    rcases h.link name with hsame | ⟨-, r, hr⟩
    · by_cases heq : n = name
      · subst heq
        obtain ⟨r, hr⟩ := hlink hs
        exact hsettled hv hr
      · rw [Lookup.walk_of_next hname (hsame.trans hl)]
        exact ih hn (by simp [heq, hv])
    · exact hsettled hname hr

theorem alias?_eq {name : String} (hnone : ∀ n ∈ (s.lookup.walk [] name).visited, ¬s.Settles s' n) :
    s'.alias? name = s.alias? name := by
  rw [alias?, alias?, h.walk_eq fun n hn => .inr (hnone n hn)]

theorem isSome_alias? {name n : String} (hn : n ∈ (s.lookup.walk [] name).visited)
    (hs : s.Settles s' n) : (s'.alias? name).isSome = true := by
  obtain ⟨r, hr, hsome⟩ := h.exists_target hn (by simp) hs
  rw [alias?, hr]
  exact hsome

theorem typeNamed_eq (r : Request) (name : String) : s'.typeNamed r name = s.typeNamed r name := by
  have htype : s'.typeByName? = s.typeByName? := by
    funext n
    rw [typeByName?, typeByName?, h.byName, h.types]
  rw [typeNamed, typeNamed, htype]

theorem onlyNamed?_eq (name : String) : s'.onlyNamed? name = s.onlyNamed? name := by
  rw [onlyNamed?, onlyNamed?, typesByBaseName, typesByBaseName, h.byBaseName, h.types]

variable {typeString scope : String}

/-- **A type string that awaits nothing means the same as before.** -/
theorem resolution?_eq (hnone : ¬s.Awaits s' typeString scope) :
    s'.resolution? typeString scope = s.resolution? typeString scope := by
  have hnamed : ∀ name, (∀ n ∈ (Request.make typeString scope).namesFor name,
        n ∈ aliasesOf (.make typeString scope)) →
      s'.aliasNamed (.make typeString scope) name = s.aliasNamed (.make typeString scope) name := by
    intro name hnames
    rw [aliasNamed, aliasNamed]
    refine findSome?_congr fun n hn => h.alias?_eq fun m hm hs => ?_
    exact hnone ⟨n, hnames n hn, m, hm, hs⟩
  rw [Store.resolution?_eq, Store.resolution?_eq]
  -- types are looked up alike, so only the typedefs that a strategy tries are of interest
  refine findSome?_congr fun strategy _ => ?_
  cases strategy with
  | primitive => rfl
  | exact => rw [found?, found?, h.typeNamed_eq]
  | typedef => exact hnamed _ fun n hn => by simp [aliasesOf, hn]
  | bareName =>
    rw [found?, found?, h.typeNamed_eq, h.onlyNamed?_eq, hnamed]
    exact fun n hn => by simp [aliasesOf, hn]
  | canonical =>
    rw [found?, found?, h.typeNamed_eq, hnamed]
    exact fun n hn => by simp [aliasesOf, hn]

/-- **A type string that meant nothing means something now exactly if it awaited it.** -/
theorem resolution?_ne_none_iff (hnone : s.resolution? typeString scope = none) :
    s'.resolution? typeString scope ≠ none ↔ s.Awaits s' typeString scope := by
  refine ⟨fun hsome => ?_, fun ⟨name, hname, n, hn, hs⟩ hnone' => ?_⟩
  · by_contra hawaits
    exact hsome ((h.resolution?_eq hawaits).trans hnone)
  -- each strategy finds nothing, so neither does the chain of `name`
  · have halias := h.isSome_alias? hn hs
    rw [Store.resolution?_eq, List.findSome?_eq_none_iff] at hnone'
    have hnamed : s'.aliasNamed (.make typeString scope)
          (Request.make typeString scope).declarator.base = none ∧
        s'.aliasNamed (.make typeString scope)
          (Request.make typeString scope).declarator.bareName = none ∧
        s'.aliasNamed (.make typeString scope)
          (Request.make typeString scope).declarator.canonicalBase = none := by
      have h₁ := hnone' .typedef (by decide)
      have h₂ := hnone' .bareName (by decide)
      have h₃ := hnone' .canonical (by decide)
      simp only [found?, Option.or_eq_none_iff] at h₁ h₂ h₃
      exact ⟨h₁, h₂.1.2, h₃.2⟩
    simp only [aliasNamed, List.findSome?_eq_none_iff] at hnamed
    have hnone'' : s'.alias? name = none := by
      simp only [aliasesOf, List.mem_append] at hname
      rcases hname with (hname | hname) | hname
      · exact hnamed.1 name hname
      · exact hnamed.2.1 name hname
      · exact hnamed.2.2 name hname
    simp [hnone''] at halias

end Further

/-- What a type string means depends on types, typedefs and references only. -/
theorem resolution?_congr {s s' : Store} (htypes : s'.types = s.types)
    (hbyName : s'.byName = s.byName) (hbyBaseName : s'.byBaseName = s.byBaseName)
    (htypedefs : s'.typedefIndex = s.typedefIndex) (hreferences : s'.references = s.references)
    (typeString scope : String) :
    s'.resolution? typeString scope = s.resolution? typeString scope := by
  have hfurther : s.Further s' :=
    ⟨htypes, hbyName, hbyBaseName, htypedefs, fun _ _ _ => .inl (by rw [hreferences])⟩
  refine hfurther.resolution?_eq ?_
  rintro ⟨-, -, -, -, t, r, r', -, hr, hnone, hr', hsome⟩
  rw [hreferences, hr] at hr'
  rw [← Option.some.inj hr', hnone] at hsome
  cases hsome

end Store

end DeclGraph
