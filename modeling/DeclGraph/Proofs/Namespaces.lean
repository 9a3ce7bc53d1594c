import Mathlib.Data.List.Basic
import DeclGraph.Proofs.Assigned
import DeclGraph.Proofs.Canonical
import DeclGraph.Proofs.Respelling

/-!
# A namespace that is spaced in another way

Stored names are canonical whatever the spacing of a namespace is, but bases, template arguments
and targets of typedefs are looked up in the namespace as it was written. The scopes around that
have names which are stored nowhere if they are not canonical, so that a lookup may miss what is
declared there.

* `canonical_qualify`: the stored name does not depend on the spacing of the namespace.
* `Store.perform_respaced`: a declaration in a respaced namespace is the declaration, respaced.
* `Store.Indifferent`: no lookup reads other declared names because of how its namespace is spaced.
* `Store.namespace_respaced`: **a pass does the same in a respaced store**, unless a lookup misses
  something.
-/

namespace DeclGraph

open Text Name

/-! ## Declarations in respaced namespaces -/

/-- The namespace of a declaration. -/
def Operation.space : Operation → String
  | .addType d => d.space
  | .addTypedef space _ _ => space
  | _ => ""

/-- The operation with its namespace in canonical spelling. -/
def Operation.respaced : Operation → Operation
  | .addType d => .addType { d with space := canonical d.space }
  | .addTypedef space name target => .addTypedef (canonical space) name target
  | o => o

/-- A namespace whose colons are all in scope operators, and that is empty if it is blank. -/
def Regular (space : String) : Prop :=
  onlyScopes space.toList = true ∧ (canonical space = "" → space = "")

instance (space : String) : Decidable (Regular space) := inferInstanceAs (Decidable (_ ∧ _))

/-- **The stored name does not depend on the spacing of the namespace.** -/
theorem canonical_qualify {space : String} (h : Regular space) (name : String) :
    canonical (qualify (canonical space) name) = canonical (qualify space name) := by
  by_cases hspace : space = ""
  · rw [hspace]
    rfl
  have hne : canonical space ≠ "" := fun heq => hspace (h.2 heq)
  have hscopes := onlyScopes_canonicalChars h.1
  have hidem := canonicalChars_canonicalChars (paired_of_onlyScopes h.1)
  have htoList : ∀ x : String, (x ++ "::" ++ relative name).toList =
      x.toList ++ ':' :: ':' :: (relative name).toList := by
    intro x
    rw [String.toList_append, String.toList_append, List.append_assoc]
    rfl
  refine String.toList_inj.1 ?_
  rw [qualify, if_neg hne, qualify, if_neg hspace, toList_canonical, toList_canonical, htoList,
    htoList, toList_canonical, canonicalChars_scope _ hscopes, canonicalChars_scope _ h.1, hidem]

/-- The type with its namespace in canonical spelling. -/
def DeclaredType.respaced (n : DeclaredType) : DeclaredType := { n with space := canonical n.space }

@[simp] theorem DeclaredType.id_respaced (n : DeclaredType) : n.respaced.id = n.id := by
  rw [respaced]

@[simp] theorem DeclaredType.space_respaced (n : DeclaredType) :
    n.respaced.space = canonical n.space := by
  rw [respaced]

@[simp] theorem DeclaredType.qualifiedName_respaced (n : DeclaredType) :
    n.respaced.qualifiedName = n.qualifiedName := by
  rw [respaced]

/-- The typedef with its namespace in canonical spelling. -/
def Typedef.respaced (t : Typedef) : Typedef := { t with space := canonical t.space }

@[simp] theorem Typedef.target_respaced (t : Typedef) : t.respaced.target = t.target := by
  rw [respaced]

/-- The reference with its scope in canonical spelling if that is a namespace. -/
def Unresolved.respaced (u : Unresolved) : Unresolved :=
  match u.owner with
  | .typedef _ => { u with scope := canonical u.scope }
  | .member .. => u

namespace Store

/-- The store with all namespaces in canonical spelling. -/
def respaced (s : Store) : Store :=
  { s with
    types := s.types.mapValues DeclaredType.respaced
    typedefs := s.typedefs.mapValues Typedef.respaced
    typedefIndex := s.typedefIndex.mapValues Typedef.respaced }

variable (s : Store)

theorem perform_respaced {o : Operation} (ho : o.IsDeclaration) (hspace : Regular o.space) :
    s.respaced.perform o.respaced = (s.perform o).respaced := by
  cases o with
  | addType d =>
    have hname : TypeDecl.qualifiedName { d with space := canonical d.space } = d.qualifiedName :=
      canonical_qualify hspace d.name
    simp only [Operation.respaced, perform, addType, hname]
    by_cases hdup : s.byName.contains d.qualifiedName = true
    · simp only [fresh, respaced, hdup, if_true]
    · simp only [fresh, respaced, hdup, Bool.false_eq_true, if_false, Table.mapValues_insert]
      rfl
  | addMember owner d =>
    have hknown : s.respaced.types.contains owner = s.types.contains owner :=
      Table.contains_mapValues ..
    simp only [Operation.respaced, perform, addMember, addReference, fresh, hknown]
    by_cases howner : s.types.contains owner = true
    · simp only [howner, if_true]
      rfl
    · simp only [howner, Bool.false_eq_true, if_false]
      rfl
  | addBase owner typeString =>
    have hknown : s.respaced.types.contains owner = s.types.contains owner :=
      Table.contains_mapValues ..
    simp only [Operation.respaced, perform, addBase, fresh, hknown]
    by_cases howner : s.types.contains owner = true
    · simp only [howner, if_true]
      rfl
    · simp only [howner, Bool.false_eq_true, if_false]
      rfl
  | addArgument owner typeString =>
    have hknown : s.respaced.types.contains owner = s.types.contains owner :=
      Table.contains_mapValues ..
    simp only [Operation.respaced, perform, addArgument, fresh, hknown]
    by_cases howner : s.types.contains owner = true
    · simp only [howner, if_true]
      rfl
    · simp only [howner, Bool.false_eq_true, if_false]
      rfl
  | addTypedef space name target =>
    generalize ht : (⟨⟨s.nextId + 1⟩, name, space, ⟨s.nextId⟩⟩ : Typedef) = t
    have ht' : (⟨⟨s.nextId + 1⟩, name, canonical space, ⟨s.nextId⟩⟩ : Typedef) = t.respaced := by
      rw [← ht]
      rfl
    have hname : t.respaced.qualifiedName = t.qualifiedName := by
      rw [← ht]
      exact canonical_qualify hspace name
    have hknown : s.respaced.typedefIndex.contains t.qualifiedName =
        s.typedefIndex.contains t.qualifiedName := Table.contains_mapValues ..
    have hnext : s.respaced.nextId = s.nextId := rfl
    simp only [Operation.respaced, perform, addTypedef, addReference, fresh, hnext, ht, ht', hname,
      hknown]
    by_cases hdup : s.typedefIndex.contains t.qualifiedName = true
    · simp only [hdup, if_true]
      rfl
    · simp only [hdup, Bool.false_eq_true, if_false, respaced, TypedefIndex.add,
        Table.mapValues_insert, hname]
  | _ => exact ho.elim

/-- Declarations in respaced namespaces make the respaced store. -/
theorem foldl_respaced {os : List Operation} (hos : ∀ o ∈ os, o.IsDeclaration)
    (hspaces : ∀ o ∈ os, Regular o.space) :
    (os.map Operation.respaced).foldl Store.perform s.respaced =
      (os.foldl Store.perform s).respaced := by
  induction os generalizing s with
  | nil => rfl
  | cons o os ih =>
    rw [List.forall_mem_cons] at hos hspaces
    rw [List.map_cons, List.foldl_cons, List.foldl_cons, s.perform_respaced hos.1 hspaces.1]
    exact ih (s.perform o) hos.2 hspaces.2

/-! ## Lookups -/

/-- Whether a type or a typedef is stored under a name. -/
def isDeclared (name : String) : Bool := s.byName.contains name || s.typedefIndex.contains name

end Store

/-- The names that a type string is looked up by. -/
def Declarator.namesRead (d : Declarator) : List String :=
  [d.base, d.bareName, d.canonicalBase, onChars trim d.canonicalBase]

namespace Store

/-- In two scopes a type string reads the same names that are declared. -/
def ReadsAlike (s : Store) (text scope scope' : String) : Prop :=
  ∀ name ∈ (Declarator.parse text).namesRead,
    (readings scope name).filter s.isDeclared = (readings scope' name).filter s.isDeclared

instance (s : Store) (text scope scope' : String) : Decidable (s.ReadsAlike text scope scope') :=
  inferInstanceAs (Decidable (∀ _ ∈ _, _))

/-- Each lookup in a namespace as it was written reads the same declared names as in canonical
spelling. -/
structure Indifferent (s : Store) : Prop where
  typedefs : ∀ t ∈ s.typedefs.values, ∀ r ∈ s.references.find? t.target,
    s.ReadsAlike r.typeString t.space (canonical t.space)
  bases : ∀ b ∈ s.bases.values,
    s.ReadsAlike b.typeString (s.ownerScope b.owner).1 (canonical (s.ownerScope b.owner).1)
  arguments : ∀ a ∈ s.arguments.values,
    s.ReadsAlike a.typeString (s.ownerScope a.owner).1 (canonical (s.ownerScope a.owner).1)

theorem findSome?_eq_of_filter {α β : Type} {p : α → Bool} {f : α → Option β} {as bs : List α}
    (h : as.filter p = bs.filter p) (hf : ∀ a, p a = false → f a = none) :
    as.findSome? f = bs.findSome? f := by
  have hfilter : ∀ l : List α, (l.filter p).findSome? f = l.findSome? f := by
    intro l
    induction l with
    | nil => rfl
    | cons a l ih =>
      rw [List.filter_cons, List.findSome?_cons]
      cases hp : p a with
      | true => rw [if_pos rfl, List.findSome?_cons, ih]
      | false => rw [if_neg Bool.false_ne_true, hf a hp, ih]
  rw [← hfilter, h, hfilter]

section Lookups

variable {s : Store} {text scope scope' : String}

theorem not_mem_of_not_isDeclared {name : String} (h : s.isDeclared name = false) :
    s.byName.find? name = none ∧ s.typedefIndex.find? name = none := by
  rw [isDeclared, Bool.or_eq_false_iff, Table.contains, Table.contains] at h
  exact ⟨Option.not_isSome_iff_eq_none.1 (Bool.eq_false_iff.1 h.1),
    Option.not_isSome_iff_eq_none.1 (Bool.eq_false_iff.1 h.2)⟩

/-- A typedef says the same if its target reads the same names. -/
theorem link_respaced {name : String} (h : ∀ t, s.typedefIndex.find? name = some t →
      ∀ r, s.references.find? t.target = some r →
        s.ReadsAlike r.typeString t.space (canonical t.space)) :
    s.respaced.lookup.link name = s.lookup.link name := by
  simp only [Lookup.link, lookup, respaced, Table.find?_mapValues]
  cases ht : s.typedefIndex.find? name with
  | none => rfl
  | some t =>
    simp only [Option.map_some, Typedef.respaced]
    cases hr : s.references.find? t.target with
    | none => rfl
    | some r =>
      have hread := h t ht r hr (Declarator.parse r.typeString).canonicalBase
        (by simp [Declarator.namesRead])
      have htype := findSome?_eq_of_filter hread fun n hn => (not_mem_of_not_isDeclared hn).1
      have hnext : (readings (canonical t.space)
            (Declarator.parse r.typeString).canonicalBase).find?
            (s.typedefIndex.mapValues Typedef.respaced).contains =
          (readings t.space (Declarator.parse r.typeString).canonicalBase).find?
            s.typedefIndex.contains := by
        rw [funext (Table.contains_mapValues Typedef.respaced s.typedefIndex),
          List.find?_eq_findSome?_guard, List.find?_eq_findSome?_guard]
        refine findSome?_eq_of_filter hread.symm fun n hn => ?_
        rw [isDeclared, Bool.or_eq_false_iff] at hn
        simp [Option.guard, hn.2]
      simp only [hnext, htype]

theorem walk_congr {l l' : Lookup} (h : ∀ name, l'.link name = l.link name) (visited : List String)
    (name : String) : l'.walk visited name = l.walk visited name := by
  fun_induction Lookup.walk l visited name with
  | case1 visited name hv => exact Lookup.walk_of_mem hv
  | case2 visited name hv target hl => exact Lookup.walk_of_settled hv ((h name).trans hl)
  | case3 visited name hv hl => exact Lookup.walk_of_deadEnd hv ((h name).trans hl)
  | case4 visited name hv next hl ih =>
    rw [Lookup.walk_of_next hv ((h name).trans hl)]
    exact ih

theorem typeByName?_respaced (name : String) :
    s.respaced.typeByName? name = (s.typeByName? name).map DeclaredType.respaced := by
  rw [typeByName?, typeByName?, Option.map_bind]
  refine congrArg _ (funext fun id => ?_)
  exact Table.find?_mapValues ..

theorem typesByBaseName_respaced (name : String) : s.respaced.typesByBaseName name =
    (s.typesByBaseName name).map DeclaredType.respaced := by
  rw [typesByBaseName, typesByBaseName, List.map_filterMap]
  refine List.filterMap_congr fun id _ => ?_
  exact Table.find?_mapValues ..

theorem onlyNamed?_respaced (name : String) :
    s.respaced.onlyNamed? name = s.onlyNamed? name := by
  rw [onlyNamed?, onlyNamed?, typesByBaseName_respaced]
  rcases s.typesByBaseName name with _ | ⟨n, _ | ⟨m, ns⟩⟩
  · rfl
  · simp only [List.map_cons, List.map_nil, DeclaredType.id_respaced]
  · rfl

theorem filter_namesFor {name : String} (hreads : s.ReadsAlike text scope scope')
    (hname : onChars trim name ∈ (Declarator.parse text).namesRead) :
    ((Request.make text scope).namesFor name).filter s.isDeclared =
      ((Request.make text scope').namesFor name).filter s.isDeclared := by
  have hread := hreads _ hname
  simp only [Request.namesFor, Request.make]
  split
  · rfl
  · exact hread

/-- A name stands for the same type in two scopes in which it reads the same names. -/
theorem typeNamed_respaced {name : String} (hreads : s.ReadsAlike text scope scope')
    (hname : onChars trim name ∈ (Declarator.parse text).namesRead) :
    s.respaced.typeNamed (.make text scope') name = s.typeNamed (.make text scope) name := by
  have hfind : Option.map (fun n : DeclaredType => Resolution.type n.id) ∘ s.respaced.typeByName? =
      Option.map (fun n => Resolution.type n.id) ∘ s.typeByName? := by
    funext n
    simp only [Function.comp_apply, typeByName?_respaced, Option.map_map, Function.comp_def,
      DeclaredType.id_respaced]
  rw [typeNamed, typeNamed, List.map_findSome?, List.map_findSome?, hfind]
  refine (findSome?_eq_of_filter (filter_namesFor hreads hname) fun n hn => ?_).symm
  rw [Function.comp_apply, typeByName?, (not_mem_of_not_isDeclared hn).1]
  rfl

theorem aliasNamed_respaced (halias : ∀ n, s.respaced.alias? n = s.alias? n) {name : String}
    (hreads : s.ReadsAlike text scope scope')
    (hname : onChars trim name ∈ (Declarator.parse text).namesRead) :
    s.respaced.aliasNamed (.make text scope') name = s.aliasNamed (.make text scope) name := by
  rw [aliasNamed, aliasNamed, findSome?_congr fun n _ => halias n]
  refine (findSome?_eq_of_filter (filter_namesFor hreads hname) fun n hn => ?_).symm
  cases halias : s.alias? n with
  | none => rfl
  | some found =>
    obtain ⟨t, ht⟩ := Table.exists_find? (mem_typedefIndex_of_alias? halias)
    rw [(not_mem_of_not_isDeclared hn).2] at ht
    cases ht

theorem trim_names (text : String) : ∀ name ∈ [(Declarator.parse text).base,
    (Declarator.parse text).bareName, (Declarator.parse text).canonicalBase],
      onChars trim name ∈ (Declarator.parse text).namesRead := by
  have hbase : onChars trim (Declarator.parse text).base = (Declarator.parse text).base :=
    String.toList_inj.1 (by rw [toList_onChars, Declarator.trim_base])
  have hbare :
      onChars trim (Declarator.parse text).bareName = (Declarator.parse text).bareName := by
    refine String.toList_inj.1 ?_
    rw [toList_onChars, Declarator.bareName, bare, toList_onChars, bareChars]
    exact trim_of_fresh (head?_trim _) (Declarator.fresh_trim_reverse _)
  simp [Declarator.namesRead, hbase, hbare]

/-- **A type string means the same in two scopes in which it reads the same names**, whichever way
the namespaces of typedefs are spaced. -/
theorem resolution?_respaced (halias : ∀ n, s.respaced.alias? n = s.alias? n)
    (hreads : s.ReadsAlike text scope scope') :
    s.respaced.resolution? text scope' = s.resolution? text scope := by
  have hnames := trim_names text
  have htype := fun name hname => typeNamed_respaced hreads (hnames name hname)
  have halias' := fun name hname => aliasNamed_respaced halias hreads (hnames name hname)
  have hdeclarator : ∀ scope, (Request.make text scope).declarator = Declarator.parse text :=
    fun _ => rfl
  rw [resolution?_eq, resolution?_eq]
  refine findSome?_congr fun strategy _ => ?_
  cases strategy with
  | primitive => rfl
  | exact =>
    rw [found?, found?, hdeclarator, hdeclarator]
    exact htype _ (by simp)
  | typedef =>
    rw [found?, found?, hdeclarator, hdeclarator]
    exact halias' _ (by simp)
  | bareName =>
    rw [found?, found?, hdeclarator, hdeclarator, htype _ (by simp), halias' _ (by simp),
      onlyNamed?_respaced]
  | canonical =>
    rw [found?, found?, hdeclarator, hdeclarator, htype _ (by simp), halias' _ (by simp)]

end Lookups

/-! ## The pass -/

theorem distinctBy_map {α κ : Type} [DecidableEq κ] {key : α → κ} {g : α → α}
    (hg : ∀ a, key (g a) = key a) (as : List α) (seen : List κ) :
    distinctBy key seen (as.map g) = (distinctBy key seen as).map g := by
  induction as generalizing seen with
  | nil => rfl
  | cons a as ih =>
    rw [List.map_cons, distinctBy, distinctBy, hg]
    split
    · exact ih seen
    · rw [ih, List.map_cons]

section Pass

variable {s : Store}

theorem ownerScope_respaced (id : TypeId) :
    (s.respaced.ownerScope id).1 = canonical (s.ownerScope id).1 := by
  have hfind : s.respaced.types.find? id = (s.types.find? id).map DeclaredType.respaced :=
    Table.find?_mapValues ..
  rw [ownerScope, ownerScope, hfind]
  cases s.types.find? id with
  | none =>
    have hempty : canonical "" = "" := by decide +kernel
    exact hempty.symm
  | some n => simp only [Option.map_some, DeclaredType.space_respaced]

/-- Typedefs of two sound stores that are filed alike have the same names. -/
theorem Sound.qualifiedName_respaced (h : s.Sound) (h' : s.respaced.Sound) :
    ∀ t ∈ s.typedefs.values, t.respaced.qualifiedName = t.qualifiedName := by
  have hkeys : s.respaced.typedefIndex.keys = s.typedefIndex.keys := Table.keys_mapValues ..
  have hvalues : s.respaced.typedefs.entries =
      s.typedefs.entries.map fun e => (e.1, e.2.respaced) := rfl
  rw [Table.keys, Table.keys, h.typedefIndex, h'.typedefIndex, hvalues, List.map_map, List.map_map,
    List.map_map, List.map_inj_left] at hkeys
  intro t ht
  obtain ⟨e, he, rfl⟩ := List.mem_map.1 ht
  exact hkeys e he

theorem memberReference?_respaced (m : Member) :
    s.respaced.memberReference? m = (s.memberReference? m).map Unresolved.respaced := by
  have hplace : s.respaced.memberPlace m = Unresolved.respaced ∘ s.memberPlace m := by
    funext r
    have hfind : s.respaced.types.find? m.owner =
        (s.types.find? m.owner).map DeclaredType.respaced :=
      Table.find?_mapValues ..
    simp only [memberPlace, hfind, Option.map_map, Function.comp_def,
      DeclaredType.qualifiedName_respaced, Unresolved.respaced]
  have hreferences : s.respaced.references = s.references := rfl
  rw [memberReference?_eq, memberReference?_eq, hreferences, hplace, Option.map_map]

theorem typedefReference?_respaced {t : Typedef} (ht : t.respaced.qualifiedName = t.qualifiedName) :
    s.respaced.typedefReference? t.respaced = (s.typedefReference? t).map Unresolved.respaced := by
  have hplace : typedefPlace t.respaced = Unresolved.respaced ∘ typedefPlace t := by
    funext r
    rw [Function.comp_apply, typedefPlace, ht, typedefPlace, Unresolved.respaced,
      Typedef.respaced]
  have hreferences : s.respaced.references = s.references := rfl
  rw [typedefReference?_eq, typedefReference?_eq, hreferences, hplace, Option.map_map,
    Typedef.target_respaced]

theorem unresolvedReferences_respaced
    (h : ∀ t ∈ s.typedefs.values, t.respaced.qualifiedName = t.qualifiedName) :
    s.respaced.unresolvedReferences = s.unresolvedReferences.map Unresolved.respaced := by
  have hreference : ∀ u : Unresolved, u.respaced.reference = u.reference := by
    intro u
    rw [Unresolved.respaced]
    split <;> rfl
  have hmembers : s.respaced.members.values.filterMap s.respaced.memberReference? =
      (s.members.values.filterMap s.memberReference?).map Unresolved.respaced := by
    rw [List.map_filterMap]
    exact List.filterMap_congr fun m _ => memberReference?_respaced m
  have htypedefs : s.respaced.typedefs.values.filterMap s.respaced.typedefReference? =
      (s.typedefs.values.filterMap s.typedefReference?).map Unresolved.respaced := by
    have hvalues : s.respaced.typedefs.values = s.typedefs.values.map Typedef.respaced :=
      Table.values_mapValues ..
    rw [hvalues, List.filterMap_map, List.map_filterMap]
    exact List.filterMap_congr fun t ht => typedefReference?_respaced (h t ht)
  simp only [unresolvedReferences]
  rw [hmembers, htypedefs, ← List.map_append, List.filter_map]
  have hneeds : (fun u : Unresolved => u.reference.needsResolution) ∘ Unresolved.respaced =
      fun u => u.reference.needsResolution := funext fun u => by simp [hreference]
  have hid : ∀ u : Unresolved, u.respaced.reference.id = u.reference.id :=
    fun u => congrArg Reference.id (hreference u)
  rw [hneeds]
  exact distinctBy_map hid _ []

variable (h : s.Sound) (hindifferent : s.Indifferent)

include h hindifferent

theorem Indifferent.alias?_respaced (name : String) : s.respaced.alias? name = s.alias? name := by
  have hlink : ∀ n, s.respaced.lookup.link n = s.lookup.link n := by
    intro n
    refine link_respaced fun t ht r hr => hindifferent.typedefs t ?_ r hr
    have hmem := Table.mem_entries_of_find? ht
    rw [h.typedefIndex] at hmem
    obtain ⟨e, he, heq⟩ := List.mem_map.1 hmem
    obtain ⟨-, rfl⟩ := Prod.mk.inj heq
    exact List.mem_map_of_mem he
  rw [alias?, alias?, walk_congr hlink]

theorem Indifferent.foundReferences_respaced (h' : s.respaced.Sound) :
    s.respaced.foundReferences = s.foundReferences := by
  rw [foundReferences, foundReferences,
    unresolvedReferences_respaced (h.qualifiedName_respaced h'), List.filterMap_map]
  refine List.filterMap_congr fun u hu => ?_
  have hmem := (List.mem_filter.1 (mem_of_mem_distinctBy hu).1).1
  have halias := hindifferent.alias?_respaced h
  rcases List.mem_append.1 hmem with hm | ht
  · obtain ⟨m, -, hm⟩ := List.mem_filterMap.1 hm
    obtain ⟨r, -, rfl⟩ := Option.map_eq_some_iff.1 (memberReference?_eq m ▸ hm)
    -- the scope of a member is a stored name
    have hreads : s.ReadsAlike r.typeString (s.memberPlace m r).scope (s.memberPlace m r).scope :=
      fun _ _ => rfl
    have hsame := resolution?_respaced halias hreads
    exact congrArg (Option.map (r.id, ·)) hsame
  · obtain ⟨t, htmem, hr⟩ := List.mem_filterMap.1 ht
    obtain ⟨r, hfind, rfl⟩ := Option.map_eq_some_iff.1 (typedefReference?_eq t ▸ hr)
    have hsame := resolution?_respaced halias (hindifferent.typedefs t htmem r hfind)
    exact congrArg (Option.map (r.id, ·)) hsame

theorem Indifferent.foundBases_respaced : s.respaced.foundBases = s.foundBases := by
  rw [foundBases, foundBases]
  refine List.filterMap_congr fun b hb => ?_
  have hsame := resolution?_respaced (hindifferent.alias?_respaced h)
    (hindifferent.bases b (List.mem_filter.1 hb).1)
  rw [baseTarget?, baseTarget?, ownerScope_respaced, hsame]

end Pass

end Store

namespace Sharing

variable {s : Store}

/-- Where each template argument means the same, references are shared in the same way. -/
theorem run_respaced {as : List TemplateArgument} (h : Sharing) (hstages : s.Stages h.store)
    (has : ∀ a ∈ as, a.reference = none ∧
      s.respaced.resolution? a.typeString (s.respaced.ownerScope a.owner).1 =
        s.resolution? a.typeString (s.ownerScope a.owner).1) :
    (run { h with store := h.store.respaced } as).1 =
      { (h.run as).1 with store := (h.run as).1.store.respaced } := by
  induction as generalizing h with
  | nil => rfl
  | cons a as ih =>
    rw [List.forall_mem_cons] at has
    obtain ⟨⟨hnone, hsame⟩, has⟩ := has
    have hstep : (step { h with store := h.store.respaced } a).1 =
        { (h.step a).1 with store := (h.step a).1.store.respaced } := by
      obtain ⟨b, n, -, hstore⟩ := hstages
      have hfound : (h.store.respaced.resolveNoting a.typeString
            (h.store.respaced.ownerScope a.owner).1).value =
          (h.store.resolveNoting a.typeString (h.store.ownerScope a.owner).1).value := by
        rw [Store.value_resolveNoting, Store.value_resolveNoting, hstore]
        -- staged references mean nothing yet
        have hstaged : ∀ t : Store, ∀ text scope,
            ({ t with staged := b, nextId := n } : Store).resolution? text scope =
              t.resolution? text scope := fun t => Store.resolution?_congr rfl rfl rfl rfl rfl
        exact ((hstaged s.respaced _ _).trans hsame).trans (hstaged s _ _).symm
      simp only [step, hnone, withoutReference, hfound]
      split
      · rfl
      · rfl
    have hstages' : s.Stages (h.step a).1.store := by
      rcases Store.store_step h a with heq | ⟨r, -, heq⟩
      · exact heq ▸ hstages
      · exact heq ▸ hstages.trans (h.store.stages_reference r)
    have hrest := ih (h.step a).1 hstages' has
    rw [← hstep] at hrest
    exact hrest

end Sharing

namespace Store

section Pass

variable {s : Store} (h : s.Sound) (hindifferent : s.Indifferent)

include h hindifferent

theorem Indifferent.shared_respaced (hunlinked : s.Unlinked) :
    s.respaced.shared = { s.shared with store := s.shared.store.respaced } := by
  rw [shared, shared]
  refine Sharing.run_respaced { store := s } (.refl s) fun a ha => ?_
  have hmem := (List.mem_filter.1 ha).1
  refine ⟨hunlinked a hmem, ?_⟩
  rw [ownerScope_respaced]
  exact resolution?_respaced (hindifferent.alias?_respaced h) (hindifferent.arguments a hmem)

/-- A pass over the respaced store leaves the respaced store. -/
theorem Indifferent.resolved_respaced (h' : s.respaced.Sound) (hstaged : s.staged = {})
    (hunlinked : s.Unlinked) : s.respaced.resolved = s.resolved.respaced := by
  rw [resolved_eq h' hstaged, resolved_eq h hstaged, hindifferent.shared_respaced h hunlinked,
    hindifferent.foundReferences_respaced h h', hindifferent.foundBases_respaced h]
  rfl

end Pass

/-- **Respaced namespaces give the same stored names**, and a pass that resolves everything to the
same, unless a lookup misses something because of how its namespace is spaced. -/
theorem namespace_respaced (os : List Operation) (hos : ∀ o ∈ os, o.IsDeclaration)
    (hspaces : ∀ o ∈ os, Regular o.space) (k : Nat) :
    let s := os.foldl perform empty
    let s' := (os.map Operation.respaced).foldl perform empty
    s'.byName = s.byName ∧ s'.typedefIndex.keys = s.typedefIndex.keys ∧
      (∃ report, (s.runResolution k).outcome = .ok report) ∧
      (∃ report, (s'.runResolution k).outcome = .ok report) ∧
      (s.Indifferent →
        (s'.runResolution k).store.references = (s.runResolution k).store.references ∧
        (s'.runResolution k).store.bases = (s.runResolution k).store.bases ∧
        (s'.runResolution k).store.arguments = (s.runResolution k).store.arguments) := by
  intro s s'
  have hs' : s' = s.respaced := empty.foldl_respaced hos hspaces
  have hsound : s.Sound := (leads_foldl os empty).sound sound_empty
  have hsound' : s'.Sound := (leads_foldl (os.map Operation.respaced) empty).sound sound_empty
  have hby : empty.LeadsBy Operation.IsDeclaration s := leadsBy_foldl os hos empty
  have hstaged : s.staged = {} := staged_of_declarations hby
  have hunlinked : s.Unlinked := unlinked_of_declarations hby
  rw [hs'] at hsound' ⊢
  obtain ⟨hrun, report, hreport, -⟩ := run_resolved hsound hstaged k
  obtain ⟨hrun', report', hreport', -⟩ := run_resolved hsound' hstaged k
  refine ⟨rfl, Table.keys_mapValues .., ⟨report, hreport⟩, ⟨report', hreport'⟩, ?_⟩
  intro hindifferent
  rw [hrun, hrun', hindifferent.resolved_respaced hsound hsound' hstaged hunlinked]
  exact ⟨rfl, rfl, rfl⟩

/-- Declarations in a namespace that is spaced in two ways. -/
def roomy : List Operation :=
  [.addType { name := "Base", space := "game::world", kind := .struct },
    .addType { name := "Derived", space := "game :: world", kind := .struct },
    .addBase ⟨2⟩ "game::world::Base", .addMember ⟨2⟩ { name := "x", typeString := "Base" },
    .addArgument ⟨2⟩ "int",
    Operation.addTypedef " game ::world" "Handle" "game::world::Derived"]

theorem namespace_respaced_roomy :
    let s := roomy.foldl perform empty
    let s' := (roomy.map Operation.respaced).foldl perform empty
    s' ≠ s ∧ (s'.runResolution 0).store.bases = (s.runResolution 0).store.bases := by
  refine ⟨by decide +kernel, ?_⟩
  have hdeclarations : ∀ o ∈ roomy, o.IsDeclaration := by simp [roomy, Operation.IsDeclaration]
  have hrespaced := namespace_respaced roomy hdeclarations (by decide +kernel) 0
  obtain ⟨-, -, -, -, hsame⟩ := hrespaced
  exact (hsame ⟨by decide +kernel, by decide +kernel, by decide +kernel⟩).2.1

/-- A base that its type cannot see because of the blanks in the namespace, although a member of
the same type string does. -/
def cramped : List Operation :=
  [.addType { name := "Base", space := "game::world", kind := .struct },
    .addType { name := "Base", space := "other", kind := .struct },
    .addType { name := "Derived", space := "game :: world", kind := .struct },
    .addMember ⟨3⟩ { name := "x", typeString := "Base" }, Operation.addBase ⟨3⟩ "Base"]

/-- The base is resolved in one spelling of the namespace only. Stored names depend on the spelling
of a namespace that is blank, and of one with a colon outside scope operators. -/
theorem namespace_respaced_not :
    (let s := cramped.foldl perform empty
      let s' := (cramped.map Operation.respaced).foldl perform empty
      (∀ o ∈ cramped, Regular o.space) ∧ s'.byName = s.byName ∧
        ((s.runResolution 0).store.references.find? ⟨4⟩).bind (·.resolution) = some (.type ⟨1⟩) ∧
        (s.runResolution 0).store.bases.values.map (·.target) = [none] ∧
        (s'.runResolution 0).store.bases.values.map (·.target) = [some ⟨1⟩]) ∧
    ∀ space ∈ [" ", "a : ::b"],
      let o := Operation.addType { name := "Foo", space, kind := .struct }
      (empty.perform o.respaced).byName ≠ (empty.perform o).byName := by
  decide +kernel

end Store

end DeclGraph
