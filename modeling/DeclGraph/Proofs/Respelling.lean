import Mathlib.Data.List.Basic
import DeclGraph.Proofs.Alike
import DeclGraph.Proofs.Chains
import DeclGraph.Proofs.Reachable

/-!
# A type string that is spaced in another way

Stored names are canonical, so a base that is not spelled canonically names nothing as it is
written, and the strategies that use the written base find nothing. The others use the canonical
base, which does not depend on spacing. What is left of the spelling is the order of two
strategies: a base in canonical spelling is looked up as a whole first, and another one without its
template arguments first.

* `Store.Reachable.named`: every type is stored under the canonical form of its qualified name.
* `Store.Reachable.found?_of_ne`: a base that is not canonical names nothing.
* `Store.Reachable.resolution?_eq_of_canonical`, `Store.Reachable.resolution?_eq_of_ne`: what a
  type string means, by the spelling of its base.
* `Store.resolution_respaced`: **when two spellings of a type string mean the same.**
-/

namespace DeclGraph

open Text Name

namespace Store

/-! ## Stored names -/

/-- Every type has the canonical form of its qualified name. -/
def Named (s : Store) : Prop :=
  ∀ n ∈ s.types.values, n.qualifiedName = canonical (qualify n.space n.baseName)

section Named

variable {s s' : Store}

theorem Numbered.named_grows (h : s.Numbered) (hn : s.Named) (hs : s.Grows s') : s'.Named := by
  cases hs with
  | number e => exact hn
  | reference => exact hn
  | type hid hname hqualified =>
    rw [Named, withType, Table.values_insert h.fresh_type]
    exact List.forall_mem_append.2 ⟨hn, by simpa using hqualified⟩
  | member => exact hn
  | base => exact hn
  | argument => exact hn
  | typedef => exact hn

theorem Sound.named_declares (h : s.Sound) (hn : s.Named) (hs : s.Declares s') : s'.Named := by
  induction hs with
  | refl => exact hn
  | tail hbefore hstep ih => exact (h.declares hbefore).named_grows ih hstep

theorem Stages.named (h : s.Stages s') (hn : s.Named) : s'.Named := by
  obtain ⟨b, n, -, rfl⟩ := h
  exact hn

theorem Sound.named_flush (h : s.Sound) (hn : s.Named) : s.flush.value.2.Named := by
  by_cases ha : s.Admitted
  · rw [value_flush_of_admitted ha, Named, h.values_types_committed]
    intro n hmem
    obtain ⟨m, hm, rfl⟩ := List.mem_map.1 hmem
    exact hn m hm
  · obtain ⟨e, he⟩ := value_flush_of_not_admitted ha
    rw [he]
    exact hn

theorem Sound.named_perform (h : s.Sound) (hn : s.Named) (o : Operation) : (s.perform o).Named := by
  rcases h.perform_cases o with hdeclares | ⟨s₁, hstages, hs₁, hstaged | hflush⟩
  · exact h.named_declares hn hdeclares
  · exact hstaged ▸ hstages.named hn
  · exact hflush ▸ hs₁.named_flush (hstages.named hn)

theorem Reachable.named (h : s.Reachable) : s.Named := by
  have hkeeps := Leads.keeps (P := fun t => t.Sound ∧ t.Named) h
    (fun t o ht => ⟨ht.1.perform o, ht.1.named_perform ht.2 o⟩)
  exact (hkeeps ⟨sound_empty, fun _ hmem => by cases hmem⟩).2

theorem Reachable.canonical_of_byName (h : s.Reachable) {name : String}
    (hname : name ∈ s.byName.keys) : ∃ y, name = canonical y := by
  obtain ⟨id, hid⟩ := Table.exists_find? hname
  have hmem := Table.mem_entries_of_find? hid
  rw [h.sound.byName] at hmem
  obtain ⟨e, he, heq⟩ := List.mem_map.1 hmem
  obtain ⟨rfl, -⟩ := Prod.mk.inj heq
  exact ⟨_, h.named e.2 (List.mem_map_of_mem he)⟩

theorem Sound.canonical_of_typedefIndex (h : s.Sound) {name : String}
    (hname : name ∈ s.typedefIndex.keys) : ∃ y, name = canonical y := by
  obtain ⟨t, ht⟩ := Table.exists_find? hname
  have hmem := Table.mem_entries_of_find? ht
  rw [h.typedefIndex] at hmem
  obtain ⟨e, -, heq⟩ := List.mem_map.1 hmem
  obtain ⟨rfl, -⟩ := Prod.mk.inj heq
  exact ⟨_, rfl⟩

end Named

end Store

/-! ## Readings of a base -/

section Readings

variable {scope base key y : String}

/-- A reading of a base ends in the base, without the scope operator in front if it has one. -/
theorem exists_of_mem_readings (hkey : key ∈ readings scope base) :
    (∃ r, base.toList = ':' :: ':' :: r ∧ key.toList = r) ∨
      isAbsolute base = false ∧ ∃ p, key.toList = p ++ base.toList := by
  rw [readings] at hkey
  rcases relative_cases base with ⟨⟨r, hbase, hr⟩, habsolute⟩ | ⟨habsolute, hrelative⟩
  · rw [if_pos habsolute, List.mem_singleton] at hkey
    exact .inl ⟨r, hbase, by rw [hkey, hr]⟩
  · rw [if_neg (by simp [habsolute]), inScopes, List.mem_append, List.mem_singleton] at hkey
    refine .inr ⟨habsolute, ?_⟩
    rcases hkey with hkey | rfl
    · obtain ⟨outer, -, rfl⟩ := List.mem_map.1 hkey
      rw [qualify, hrelative]
      split
      · exact ⟨[], rfl⟩
      · exact ⟨(outer ++ "::").toList, String.toList_append⟩
    · exact ⟨[], rfl⟩

/-- **A base has to be canonical if one of its readings is.** -/
theorem canonical_of_reading (hkey : canonical y ∈ readings scope base)
    (htrim : trim base.toList = base.toList) (hscopes : onlyScopes base.toList = true) :
    canonical base = base := by
  refine String.toList_inj.1 ?_
  rw [toList_canonical]
  rcases exists_of_mem_readings hkey with ⟨r, hbase, hr⟩ | ⟨habsolute, p, hp⟩
  · rw [toList_canonical] at hr
    have hfresh : Fresh r := by
      rw [← hr, canonicalChars_eq]
      exact head?_written_any (lettered_canonical _)
    have hfresh' : Fresh r.reverse := by
      have hends := Declarator.fresh_trim_reverse base.toList
      rw [htrim, hbase, List.reverse_cons, List.reverse_cons, List.append_assoc] at hends
      cases hrev : r.reverse with
      | nil => rfl
      | cons c q =>
        rw [hrev] at hends
        exact hends
    rw [hbase] at hscopes ⊢
    have hhead : r.head? ≠ some ':' := by
      rw [onlyScopes, Bool.and_eq_true, bne_iff_ne, hfresh.dropBlanks] at hscopes
      exact hscopes.1
    have htail : onlyScopes r = true := by
      rw [onlyScopes, Bool.and_eq_true] at hscopes
      exact hscopes.2
    rw [canonicalChars_absolute hscopes hfresh,
      canonicalChars_tail (p := []) hr (trim_of_fresh hfresh hfresh') htail hhead]
  · rw [toList_canonical] at hp
    refine canonicalChars_tail hp htrim hscopes fun hhead => ?_
    obtain ⟨r, hr⟩ := List.head?_eq_some_iff.1 hhead
    rw [isAbsolute, hr] at habsolute
    rw [hr] at hscopes
    rcases r with _ | ⟨c, r⟩
    · exact absurd hscopes (by decide)
    · by_cases hc : c = ':'
      · subst hc
        simp [List.isPrefixOf] at habsolute
      · rw [onlyScopes] at hscopes
        · simp at hscopes
        · rintro r' - heq
          exact hc (List.cons.inj heq).1

end Readings

/-! ## Names of primitive types -/

namespace Name

theorem isName_iff {name : String} : Primitive.isName name = true ↔ name ∈ Primitive.names := by
  have hlookup : ∀ l : List (String × Primitive),
      (l.lookup name).isSome = true ↔ name ∈ l.map Prod.fst := by
    intro l
    induction l with
    | nil => simp
    | cons p l ih =>
      rw [List.lookup_cons, List.map_cons, List.mem_cons, ← ih]
      cases heq : name == p.1 with
      | true => simp [beq_iff_eq.1 heq]
      | false => simp [beq_eq_false_iff_ne.1 heq]
  exact hlookup Primitive.table

/-- A primitive type is spelled by the same bases in canonical spelling. -/
theorem isName_collapsed (name : String) :
    Primitive.isName (collapsed name) = Primitive.isName (canonical name) := by
  have hcanonical : ∀ n ∈ Primitive.names, canonical n = n := by decide +kernel
  have hplain : ∀ n ∈ Primitive.names, n.toList.all isPlain = true := by decide +kernel
  rw [Bool.eq_iff_iff, isName_iff, isName_iff]
  constructor
  · intro h
    have hsame : canonical (collapsed name) = canonical name :=
      String.toList_inj.1 (by simp [canonicalChars_collapse])
    rw [← hsame, hcanonical _ h]
    exact h
  · intro h
    have hsame : collapsed name = canonical name := by
      refine String.toList_inj.1 ?_
      rw [toList_collapsed, toList_canonical]
      refine collapse_of_plain ?_
      rw [← toList_canonical]
      exact List.all_eq_true.1 (hplain _ h)
    rwa [hsame]

end Name

namespace Store

/-! ## What two spellings mean -/

section Lookups

variable {s : Store} {r : Request} {name text text' scope : String}

theorem mem_readings_of_mem_namesFor {key : String} (htrim : trim name.toList = name.toList)
    (hkey : key ∈ r.namesFor name) : key ∈ readings r.scope name := by
  have hname : onChars trim name = name := String.toList_inj.1 (by rw [toList_onChars, htrim])
  simp only [Request.namesFor, hname] at hkey
  split at hkey
  · cases hkey
  · exact hkey

theorem mem_typedefIndex_of_alias? {found : Resolution} (h : s.alias? name = some found) :
    name ∈ s.typedefIndex.keys := by
  by_contra hname
  have hlink : s.lookup.link name = .deadEnd := by
    simp only [Lookup.link, lookup, Table.find?_eq_none_iff.2 hname]
  rw [alias?, Lookup.walk_of_deadEnd List.not_mem_nil hlink] at h
  cases h

/-- **A base that is not canonical names nothing.** -/
theorem Reachable.found?_of_ne (h : s.Reachable) (hscopes : onlyScopes text.toList = true)
    (hne : (Declarator.parse text).canonicalBase ≠ (Declarator.parse text).base) :
    s.found? (.make text scope) .exact = none ∧ s.found? (.make text scope) .typedef = none := by
  have hreading : ∀ key, (∃ y, key = canonical y) →
      key ∉ (Request.make text scope).namesFor (Declarator.parse text).base := by
    rintro key ⟨y, rfl⟩ hkey
    have hmem := mem_readings_of_mem_namesFor (Declarator.trim_base text) hkey
    exact hne (canonical_of_reading hmem (Declarator.trim_base text)
      (Declarator.onlyScopes_base hscopes))
  constructor
  · rw [found?, typeNamed, Option.map_eq_none_iff, List.findSome?_eq_none_iff]
    intro key hkey
    rw [typeByName?, Option.bind_eq_none_iff]
    intro id hid
    exact absurd hkey (hreading key (h.canonical_of_byName (Table.mem_keys_of_find? hid)))
  · rw [found?, aliasNamed, List.findSome?_eq_none_iff]
    intro key hkey
    cases halias : s.alias? key with
    | none => rfl
    | some found =>
      have hmem := mem_typedefIndex_of_alias? halias
      exact absurd hkey (hreading key (h.sound.canonical_of_typedefIndex hmem))

theorem resolution?_strategies (s : Store) (text scope : String) :
    s.resolution? text scope = (s.found? (.make text scope) .primitive).or
      ((s.found? (.make text scope) .exact).or ((s.found? (.make text scope) .typedef).or
        ((s.found? (.make text scope) .bareName).or
          (s.found? (.make text scope) .canonical)))) := by
  rw [resolution?_eq, Strategy.all]
  simp only [List.findSome?_cons, List.findSome?_nil]
  cases s.found? (.make text scope) .primitive <;> cases s.found? (.make text scope) .exact <;>
    cases s.found? (.make text scope) .typedef <;> cases s.found? (.make text scope) .bareName <;>
    cases s.found? (.make text scope) .canonical <;> rfl

theorem resolution?_of_leaf (h : (Declarator.parse text).isPrimitiveLeaf = true) :
    s.resolution? text scope = some .primitive := by
  have hfound : s.found? (.make text scope) .primitive = some .primitive := if_pos h
  rw [resolution?_strategies, hfound, Option.some_or]

/-- A base in canonical spelling is looked up as a whole first. -/
theorem resolution?_of_canonical (hleaf : ¬(Declarator.parse text).isPrimitiveLeaf = true)
    (hbase : (Declarator.parse text).canonicalBase = (Declarator.parse text).base) :
    s.resolution? text scope =
      (s.found? (.make text scope) .canonical).or (s.found? (.make text scope) .bareName) := by
  have hfound : s.found? (.make text scope) .primitive = none := if_neg hleaf
  have hwhole : s.found? (.make text scope) .canonical =
      (s.found? (.make text scope) .exact).or (s.found? (.make text scope) .typedef) := by
    rw [found?, found?, found?]
    exact congrArg (fun name => (s.typeNamed (.make text scope) name).or
      (s.aliasNamed (.make text scope) name)) hbase
  rw [resolution?_strategies, hfound, Option.none_or, ← Option.or_assoc, ← hwhole,
    ← Option.or_assoc]
  cases s.found? (.make text scope) .canonical <;> simp

/-- A base in another spelling is looked up without its template arguments first. -/
theorem Reachable.resolution?_of_ne (h : s.Reachable) (hscopes : onlyScopes text.toList = true)
    (hleaf : ¬(Declarator.parse text).isPrimitiveLeaf = true)
    (hbase : (Declarator.parse text).canonicalBase ≠ (Declarator.parse text).base) :
    s.resolution? text scope =
      (s.found? (.make text scope) .bareName).or (s.found? (.make text scope) .canonical) := by
  have hfound : s.found? (.make text scope) .primitive = none := if_neg hleaf
  obtain ⟨hexact, htypedef⟩ : s.found? (.make text scope) .exact = none ∧
    s.found? (.make text scope) .typedef = none := h.found?_of_ne hscopes hbase
  rw [resolution?_strategies, hfound, hexact, htypedef, Option.none_or, Option.none_or,
    Option.none_or]

/-- The base with its template arguments names one thing, and without them another. -/
def Disputed (s : Store) (r : Request) : Prop :=
  ∃ x y, s.found? r .canonical = some x ∧ s.found? r .bareName = some y ∧ x ≠ y

theorem or_comm_iff (r : Request) : (s.found? r .canonical).or (s.found? r .bareName) =
    (s.found? r .bareName).or (s.found? r .canonical) ↔ ¬s.Disputed r := by
  rw [Disputed]
  cases s.found? r .canonical <;> cases s.found? r .bareName <;> simp [eq_comm]

theorem outside_of_not_mem {s : List Char} (h : '<' ∉ s) : bareChars.outside 0 s = s := by
  induction s with
  | nil => rfl
  | cons c r ih =>
    rw [List.mem_cons, not_or] at h
    rw [bareChars.outside, if_neg (Ne.symm h.1), if_pos rfl, ih h.2]

theorem namesFor_bare (r : Request) (h : '<' ∉ name.toList) :
    r.namesFor (bare name) = r.namesFor name := by
  have htrim : onChars trim (bare name) = onChars trim name := by
    refine String.toList_inj.1 ?_
    rw [toList_onChars, toList_onChars, bare, toList_onChars, bareChars, outside_of_not_mem h]
    exact trim_of_fresh (head?_trim _) (Declarator.fresh_trim_reverse _)
  simp only [Request.namesFor, htrim]

/-- A base without template arguments names the same with and without them. -/
theorem not_disputed_of_not_mem (h : '<' ∉ (Declarator.parse text).base.toList) :
    ¬s.Disputed (.make text scope) := by
  have hcanonical : '<' ∉ (Declarator.parse text).canonicalBase.toList := by
    rw [Declarator.canonicalBase, toList_canonical]
    exact fun hmem => h (mem_of_mem_canonicalChars (by decide) hmem)
  have hnames := namesFor_bare (.make text scope) hcanonical
  rintro ⟨x, y, hx, hy, hne⟩
  simp only [found?, Request.make, typeNamed, aliasNamed] at hx hy hnames
  rw [Declarator.bareName, hnames, hx, Option.some_or] at hy
  exact hne (Option.some.inj hy)

/-- The strategies that do not use the written base find the same for both spellings. -/
theorem found?_of_canonicalBase (s : Store) (scope : String)
    (h : (Declarator.parse text).canonicalBase = (Declarator.parse text').canonicalBase) :
    s.found? (.make text scope) .canonical = s.found? (.make text' scope) .canonical ∧
      s.found? (.make text scope) .bareName = s.found? (.make text' scope) .bareName := by
  have hbare : (Declarator.parse text).bareName = (Declarator.parse text').bareName := by
    rw [Declarator.bareName, h, Declarator.bareName]
  have hnames : ∀ name,
      (Request.make text scope).namesFor name = (Request.make text' scope).namesFor name :=
    fun _ => rfl
  simp only [found?, Request.make, typeNamed, aliasNamed, hbare, h] at hnames ⊢
  simp only [hnames, and_self]

theorem isPrimitiveLeaf_of_canonicalBase
    (h : (Declarator.parse text).canonicalBase = (Declarator.parse text').canonicalBase)
    (hpointer : (Declarator.parse text).isFunctionPointer =
      (Declarator.parse text').isFunctionPointer) :
    (Declarator.parse text).isPrimitiveLeaf = (Declarator.parse text').isPrimitiveLeaf := by
  rw [Declarator.canonicalBase, Declarator.canonicalBase] at h
  rw [Declarator.isPrimitiveLeaf, Declarator.isPrimitiveLeaf, hpointer, isName_collapsed,
    isName_collapsed, h]

end Lookups

/-- Types whose names differ in template arguments, in scopes or in odd colons. -/
def lookalikes : Store :=
  [.addType { name := "Vec<int>", kind := .struct }, .addType { name := "Vec", kind := .struct },
    .addType { name := "Foo", kind := .struct },
    .addType { name := "Foo", space := "ns", kind := .struct },
    .addType { name := "a : :: b", kind := .struct },
    Operation.addType { name := "Map<int, char>", space := "ns", kind := .class_ }].foldl perform
    empty

theorem reachable_lookalikes : lookalikes.Reachable := leads_foldl _ _

end Store

end DeclGraph
