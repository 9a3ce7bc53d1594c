import DeclGraph.Document.Import
import DeclGraph.Proofs.SourceOrder

/-!
# Declaring a document

A document whose types have distinct names, and whose typedefs have, is declared as a whole. What
it leaves in the store are the entities that its records say, in the order of the records, and an
unresolved reference for each member and typedef.

* `TypeRecord.entity` and its neighbours: what a record says.
* `Filing`: what has been declared so far. `Store.Files`: the store that has just that.
* `Store.Files.type` and its neighbours: one declaration more.
* `Document.Distinct.exists_files`: **the whole document.**
-/

namespace DeclGraph

open Name

/-! ## Records -/

/-- The reference that is declared with a member or a typedef has the number before. -/
def Id.reference {e : Entity} (id : Id e) : ReferenceId := ⟨id.val - 1⟩

namespace TypeRecord

/-- The canonical qualified name of the type. -/
def qualifiedName (r : TypeRecord) : String := canonical (qualify r.space r.name)

/-- The type that a record declares. -/
def entity (r : TypeRecord) (id : TypeId) : DeclaredType :=
  { id
    baseName := r.name
    space := r.space
    kind := r.kind
    alignment := r.alignment
    isIgnored := r.isIgnored
    qualifiedName := r.qualifiedName
    basePath := r.basePath
    size := none }

end TypeRecord

namespace TypedefRecord

/-- The canonical qualified name of the typedef. -/
def qualifiedName (r : TypedefRecord) : String := canonical (qualify r.space r.name)

/-- The typedef that a record declares. -/
def entity (r : TypedefRecord) (id : TypedefId) : Typedef :=
  { id, name := r.name, space := r.space, target := id.reference }

/-- The target with what it was resolved to. -/
def link (r : TypedefRecord) : LinkRecord := ⟨r.target, r.resolved, r.primitive⟩

end TypedefRecord

namespace MemberRecord

/-- The member that a record declares at a place. -/
def entity (owner : TypeId) (place : Nat) (id : MemberId) (r : MemberRecord) : Member :=
  { id
    owner
    name := r.name
    order := r.order.getD (UInt32.ofNat place)
    typeString := r.typeString
    reference := some id.reference
    offset := none
    bitWidth := r.bitWidth
    alignment := r.alignment
    isFunctionPointer := r.isFunctionPointer
    signature := if r.isFunctionPointer then r.signature else none }

/-- The type string with what it was resolved to. -/
def link (r : MemberRecord) : LinkRecord := ⟨r.typeString, r.resolved, r.primitive⟩

end MemberRecord

namespace LinkRecord

/-- The base that a record declares at a place. -/
def base (owner : TypeId) (place : Nat) (id : BaseId) (r : LinkRecord) : BaseEdge :=
  { id, owner, order := UInt32.ofNat place, target := none, typeString := r.typeString }

/-- The template argument that a record declares at a place. -/
def argument (owner : TypeId) (place : Nat) (id : ArgumentId) (r : LinkRecord) :
    TemplateArgument :=
  { id, owner, position := UInt32.ofNat place, typeString := r.typeString, reference := none }

end LinkRecord

/-- No two types of a document have one name, and no two typedefs. -/
structure Document.Distinct (d : Document) : Prop where
  types : (d.types.map TypeRecord.qualifiedName).Nodup
  typedefs : (d.typedefs.map TypedefRecord.qualifiedName).Nodup

/-! ## What has been declared -/

/-- The parts of all types. -/
def DeclaredParts.flatten (gs : List (TypeId × DeclaredParts)) : DeclaredParts :=
  ⟨gs.flatMap (·.2.bases), gs.flatMap (·.2.arguments), gs.flatMap (·.2.members)⟩

/-- What has been declared of a document, with the parts of each type. -/
structure Filing where
  types : List (TypeId × TypeRecord) := []
  typedefs : List (TypedefId × TypedefRecord) := []
  parts : List (TypeId × DeclaredParts) := []

namespace Filing

/-- The whole of it, without a word on which type has which parts. -/
def declared (f : Filing) : DeclaredDocument := ⟨f.types, f.typedefs, .flatten f.parts⟩

/-- The references that were declared with typedefs and members, with what the records say of
them. -/
def links (f : Filing) : List (ReferenceId × LinkRecord) :=
  f.typedefs.map (fun p => (p.1.reference, p.2.link)) ++
    (f.parts.flatMap (·.2.members)).map fun p => (p.1.reference, p.2.link)

/-- A type has the parts that its record says. -/
structure Covers (r : TypeId × TypeRecord) (g : TypeId × DeclaredParts) : Prop where
  owner : g.1 = r.1
  bases : g.2.bases.map Prod.snd = r.2.bases
  arguments : g.2.arguments.map Prod.snd = r.2.arguments
  members : g.2.members.map Prod.snd = r.2.members

/-- All of a document has been declared. -/
structure Complete (f : Filing) (d : Document) : Prop where
  types : f.types.map Prod.snd = d.types
  typedefs : f.typedefs.map Prod.snd = d.typedefs
  parts : List.Forall₂ Covers f.types f.parts

section Entities

variable {ι ρ α : Type} {select : DeclaredParts → List (ι × ρ)}
  {entity : TypeId → Nat → ι → ρ → α}

/-- The entities that the records of a list are, each at its place. -/
def placed (entity : TypeId → Nat → ι → ρ → α) (owner : TypeId) (ps : List (ι × ρ)) : List α :=
  ps.zipIdx.map fun p => entity owner p.2 p.1.1 p.1.2

/-- The entities that parts of one kind are, type by type. -/
def entities (select : DeclaredParts → List (ι × ρ)) (entity : TypeId → Nat → ι → ρ → α)
    (gs : List (TypeId × DeclaredParts)) : List α :=
  gs.flatMap fun g => placed entity g.1 (select g.2)

@[simp] theorem length_placed (owner : TypeId) (ps : List (ι × ρ)) :
    (placed entity owner ps).length = ps.length := by
  rw [placed, List.length_map, List.length_zipIdx]

theorem placed_concat (owner : TypeId) (ps : List (ι × ρ)) (p : ι × ρ) :
    placed entity owner (ps ++ [p]) =
      placed entity owner ps ++ [entity owner ps.length p.1 p.2] := by
  rw [placed, List.zipIdx_append, List.map_append, Nat.zero_add]
  rfl

theorem entities_concat (gs : List (TypeId × DeclaredParts)) (g : TypeId × DeclaredParts) :
    entities select entity (gs ++ [g]) =
      entities select entity gs ++ placed entity g.1 (select g.2) := by
  rw [entities, List.flatMap_append, List.flatMap_singleton]
  rfl

/-- Nothing changes for the entities of one kind when a type gets parts of another. -/
theorem entities_concat_congr {gs : List (TypeId × DeclaredParts)} {id : TypeId}
    {ps ps' : DeclaredParts} (h : select ps = select ps') :
    entities select entity (gs ++ [(id, ps)]) = entities select entity (gs ++ [(id, ps')]) := by
  rw [entities_concat, entities_concat, h]

theorem filter_placed {owner : α → TypeId} (howner : ∀ o i a r, owner (entity o i a r) = o)
    (o id : TypeId) (ps : List (ι × ρ)) : (placed entity o ps).filter (owner · = id) =
      if o = id then placed entity o ps else [] := by
  have hall : ∀ a ∈ placed entity o ps, owner a = o := by
    intro a ha
    obtain ⟨p, -, rfl⟩ := List.mem_map.1 ha
    exact howner _ _ _ _
  split
  · next h => exact List.filter_eq_self.2 fun a ha => decide_eq_true ((hall a ha).trans h)
  · next h =>
    refine List.filter_eq_nil_iff.2 fun a ha heq => h ?_
    exact (hall a ha).symm.trans (of_decide_eq_true heq)

/-- The entities of one type. -/
theorem filter_entities (owner : α → TypeId) (howner : ∀ o i a r, owner (entity o i a r) = o)
    {gs : List (TypeId × DeclaredParts)} (hgs : (gs.map Prod.fst).Nodup)
    {g : TypeId × DeclaredParts} (hg : g ∈ gs) :
    (entities select entity gs).filter (owner · = g.1) = placed entity g.1 (select g.2) := by
  rw [entities, List.filter_flatMap]
  simp only [filter_placed howner]
  -- the other types have other owners
  induction gs with
  | nil => cases hg
  | cons k gs ih =>
    rw [List.map_cons, List.nodup_cons] at hgs
    rw [List.flatMap_cons]
    rcases List.mem_cons.1 hg with rfl | hg
    · have hnone : ∀ k ∈ gs, (if k.1 = g.1 then placed entity k.1 (select k.2) else []) = [] :=
        fun k hk => if_neg fun heq => hgs.1 (List.mem_map.2 ⟨k, hk, heq⟩)
      rw [if_pos rfl, List.flatMap_eq_nil_iff.2 hnone, List.append_nil]
    · have hother : k.1 ≠ g.1 := fun heq => hgs.1 (heq ▸ List.mem_map_of_mem hg)
      rw [if_neg hother, List.nil_append, ih hgs.2 hg]

/-- Every part is an entity. -/
theorem exists_entity (entity : TypeId → Nat → ι → ρ → α) {gs : List (TypeId × DeclaredParts)}
    {p : ι × ρ}
    (hp : p ∈ gs.flatMap fun g => select g.2) :
    ∃ owner place, entity owner place p.1 p.2 ∈ entities select entity gs := by
  obtain ⟨g, hg, hp⟩ := List.mem_flatMap.1 hp
  rw [← List.zipIdx_map_fst 0 (select g.2)] at hp
  obtain ⟨q, hq, rfl⟩ := List.mem_map.1 hp
  exact ⟨g.1, q.2, List.mem_flatMap.2 ⟨g, hg, List.mem_map_of_mem hq⟩⟩

/-- A change of entities by what their records say. -/
theorem map_entities_eq {β : Type} {g : α → β} {entity' : TypeId → Nat → ι → ρ → β}
    {gs : List (TypeId × DeclaredParts)}
    (h : ∀ p ∈ gs.flatMap (fun g => select g.2), ∀ owner place,
      g (entity owner place p.1 p.2) = entity' owner place p.1 p.2) :
    (entities select entity gs).map g = entities select entity' gs := by
  rw [entities, List.map_flatMap, entities]
  refine List.flatMap_congr fun k hk => ?_
  rw [placed, List.map_map, placed]
  refine List.map_congr_left fun p hp => ?_
  have hmem : p.1 ∈ select k.2 := by
    have hfst := List.mem_map_of_mem (f := Prod.fst) hp
    rwa [List.zipIdx_map_fst] at hfst
  exact h p.1 (List.mem_flatMap.2 ⟨k, hk, hmem⟩) k.1 p.2

/-- The identities of the entities are those of the parts. -/
theorem map_entities (id : α → ι) (hid : ∀ o i a r, id (entity o i a r) = a)
    (gs : List (TypeId × DeclaredParts)) :
    (entities select entity gs).map id = (gs.flatMap fun g => select g.2).map Prod.fst := by
  have hplaced : ∀ o ps, (placed entity o ps).map id = ps.map Prod.fst := by
    intro o ps
    have hzip : (placed entity o ps).map id = (ps.zipIdx.map Prod.fst).map Prod.fst := by
      rw [placed, List.map_map, List.map_map]
      exact List.map_congr_left fun p _ => hid _ _ _ _
    rw [hzip, List.zipIdx_map_fst]
  rw [entities, List.map_flatMap, List.map_flatMap]
  simp only [hplaced]

/-- What else the entities say does not matter for how their identities rise. -/
theorem entities_rise {e : Entity} {entity entity' : TypeId → Nat → Id e → ρ → α}
    {select : DeclaredParts → List (Id e × ρ)} (id : α → Id e)
    (hid : ∀ o i a r, id (entity o i a r) = a)
    (hid' : ∀ o i a r, id (entity' o i a r) = a) {gs : List (TypeId × DeclaredParts)}
    (h : (entities select entity gs).Pairwise fun a b => (id a).val < (id b).val) :
    (entities select entity' gs).Pairwise fun a b => (id a).val < (id b).val := by
  have hiff := fun as : List α =>
    List.pairwise_map (l := as) (f := id) (R := fun i j : Id e => i.val < j.val)
  have hrise := (hiff _).2 h
  rw [map_entities id hid, ← map_entities id hid'] at hrise
  exact (hiff _).1 hrise

/-- Entities that are read by their places come in word order. -/
theorem map_mergeSort_placed (position : α → UInt32)
    (hposition : ∀ o i a r, position (entity o i a r) = UInt32.ofNat i) (record : α → ρ)
    (keep : ρ → ρ) {owner : TypeId} {ps : List (ι × ρ)}
    (hrecord : ∀ p ∈ ps, ∀ i, record (entity owner i p.1 p.2) = keep p.2) :
    ((placed entity owner ps).mergeSort
      fun a b => (position a).toNat ≤ (position b).toNat).map record =
        inWordOrder ((ps.map Prod.snd).map keep) := by
  rw [placed, ← List.map_mergeSort (r := fun a b : (ι × ρ) × Nat =>
    decide ((UInt32.ofNat a.2).toNat ≤ (UInt32.ofNat b.2).toNat)), List.map_map, List.map_map,
    inWordOrder_map, inWordOrder, List.map_map]
  · refine List.map_congr_left fun p hp => ?_
    have hmem : p.1 ∈ ps := by
      have hfst := List.mem_map_of_mem (f := Prod.fst) (List.mem_mergeSort.1 hp)
      rwa [List.zipIdx_map_fst] at hfst
    exact hrecord p.1 hmem p.2
  · intro a _ b _
    rw [hposition, hposition]

end Entities

theorem map_fst_concat (gs : List (TypeId × DeclaredParts)) (id : TypeId)
    (ps ps' : DeclaredParts) :
    (gs ++ [(id, ps)]).map Prod.fst = (gs ++ [(id, ps')]).map Prod.fst := by
  rw [List.map_append, List.map_append]
  rfl

theorem links_concat (f : Filing) {gs : List (TypeId × DeclaredParts)} {id : TypeId}
    {ps ps' : DeclaredParts} (h : ps.members = ps'.members) :
    ({ f with parts := gs ++ [(id, ps)] } : Filing).links =
      ({ f with parts := gs ++ [(id, ps')] } : Filing).links := by
  simp only [links, List.flatMap_append, List.flatMap_singleton, h]

end Filing

namespace Store

open Filing

/-- A store with the declarations of a document and nothing else. -/
structure Files (s : Store) (f : Filing) : Prop where
  sound : s.Sound
  staged : s.staged = {}
  types : s.types.values = f.types.map fun p => p.2.entity p.1
  typedefs : s.typedefs.values = f.typedefs.map fun p => p.2.entity p.1
  bases : s.bases.values = entities (·.bases) LinkRecord.base f.parts
  arguments : s.arguments.values = entities (·.arguments) LinkRecord.argument f.parts
  members : s.members.values = entities (·.members) MemberRecord.entity f.parts
  baseIds : s.bases.values.Pairwise (·.id.val < ·.id.val)
  argumentIds : s.arguments.values.Pairwise (·.id.val < ·.id.val)
  memberIds : s.members.values.Pairwise (·.id.val < ·.id.val)
  owned : ∀ o ∈ f.parts.map Prod.fst, o ∈ s.types.keys
  owners : (f.parts.map Prod.fst).Nodup
  unresolved : ∀ r ∈ s.references.values, r.resolution = none
  references : ∀ l ∈ f.links,
    s.references.find? l.1 = some (.ofTypeString l.1 l.2.typeString)
  links : (f.links.map Prod.fst).Nodup

variable {s : Store} {f : Filing}

theorem files_empty : empty.Files {} where
  sound := sound_empty
  staged := rfl
  types := rfl
  typedefs := rfl
  bases := rfl
  arguments := rfl
  members := rfl
  baseIds := .nil
  argumentIds := .nil
  memberIds := .nil
  owned _ h := by cases h
  owners := .nil
  unresolved _ h := by cases h
  references _ h := by cases h
  links := .nil

theorem Files.keys_types (h : s.Files f) : s.types.keys = f.types.map Prod.fst := by
  rw [← Table.map_values h.sound.typeId, h.types, List.map_map]
  rfl

/-- Identities rise as long as each new entity gets the next number. -/
theorem Numbered.rises_insert {e : Entity} {α : Type} {t : Table (Id e) α} {id : α → Id e}
    (h : s.Numbered) (hkeys : t.keys.map Id.val ∈ s.numbersByKind)
    (hid : ∀ e ∈ t.entries, id e.2 = e.1)
    (hrises : t.values.Pairwise fun a b => (id a).val < (id b).val) {a : α}
    (ha : id a = ⟨s.nextId⟩) :
    (t.insert ⟨s.nextId⟩ a).values.Pairwise fun a b => (id a).val < (id b).val := by
  rw [Table.values_insert (h.next_not_mem hkeys)]
  refine List.pairwise_append.2 ⟨hrises, List.pairwise_singleton _ _, fun b hb c hc => ?_⟩
  obtain rfl := List.mem_singleton.1 hc
  obtain ⟨p, hp, rfl⟩ := List.mem_map.1 hb
  rw [ha, hid p hp]
  refine h.lt _ (List.mem_flatten.2 ⟨_, hkeys, List.mem_map_of_mem ?_⟩)
  exact List.mem_map_of_mem hp

/-! ## One declaration more -/

theorem addType_of_not_mem {d : TypeDecl} (hname : d.qualifiedName ∉ s.byName.keys) :
    s.addType d = (.ok ⟨s.nextId⟩, s.withType {
      id := ⟨s.nextId⟩
      baseName := d.name
      space := d.space
      kind := d.kind
      alignment := d.alignment
      isIgnored := d.isIgnored
      qualifiedName := d.qualifiedName
      basePath := d.basePath
      size := none }) := by
  have hcontains : ¬s.byName.contains d.qualifiedName = true := fun hmem =>
    hname (Table.contains_iff.1 hmem)
  simp only [addType, Store.fresh, hcontains]
  rfl

theorem addBase_of_mem {owner : TypeId} (howner : owner ∈ s.types.keys) (typeString : String) :
    s.addBase owner typeString = (.ok ⟨s.nextId⟩, s.withBase {
      id := ⟨s.nextId⟩
      owner
      order := UInt32.ofNat (s.basesOf owner).length
      target := none
      typeString }) := by
  simp only [addBase, Store.fresh, Table.contains_iff.2 howner, if_true]
  rfl

theorem addArgument_of_mem {owner : TypeId} (howner : owner ∈ s.types.keys)
    (typeString : String) :
    s.addArgument owner typeString = (.ok ⟨s.nextId⟩, s.withArgument {
      id := ⟨s.nextId⟩
      owner
      position := UInt32.ofNat (s.argumentsOf owner).length
      typeString
      reference := none }) := by
  simp only [addArgument, Store.fresh, Table.contains_iff.2 howner, if_true]
  rfl

/-- The unresolved reference that is declared next. -/
def nextReference (s : Store) (typeString : String) : Reference :=
  .ofTypeString ⟨s.nextId⟩ typeString

theorem addMember_of_mem {owner : TypeId} (howner : owner ∈ s.types.keys) (d : MemberDecl) :
    s.addMember owner d =
      (.ok ⟨s.nextId + 1⟩, (s.withReference (s.nextReference d.typeString)).withMember {
        id := ⟨s.nextId + 1⟩
        owner
        name := d.name
        order := d.order.getD (UInt32.ofNat (s.membersOf owner).length)
        typeString := d.typeString
        reference := some ⟨s.nextId⟩
        offset := none
        bitWidth := d.bitWidth
        alignment := d.alignment
        isFunctionPointer := d.isFunctionPointer
        signature := d.signature }) := by
  simp only [addMember, Store.fresh, addReference, Table.contains_iff.2 howner, if_true]
  rfl

theorem addTypedef_of_not_mem {space name target : String}
    (hname : canonical (qualify space name) ∉ s.typedefIndex.keys) :
    s.addTypedef space name target =
      (.ok ⟨s.nextId + 1⟩, (s.withReference (s.nextReference target)).withTypedef {
        id := ⟨s.nextId + 1⟩, name, space, target := ⟨s.nextId⟩ }) := by
  have hcontains : ¬s.typedefIndex.contains (canonical (qualify space name)) = true := fun hmem =>
    hname (Table.contains_iff.1 hmem)
  simp only [addTypedef, Store.fresh, addReference, Typedef.qualifiedName, hcontains]
  rfl

namespace Files

theorem not_mem_byName (h : s.Files f) {name : String}
    (hname : ∀ p ∈ f.types, p.2.qualifiedName ≠ name) : name ∉ s.byName.keys := by
  intro hmem
  rw [Table.keys, h.sound.byName, List.map_map] at hmem
  obtain ⟨e, he, heq⟩ := List.mem_map.1 hmem
  have hvalue : e.2 ∈ s.types.values := List.mem_map_of_mem he
  rw [h.types] at hvalue
  obtain ⟨p, hp, hentity⟩ := List.mem_map.1 hvalue
  refine hname p hp ?_
  rw [← heq, Function.comp_apply, ← hentity]
  rfl

theorem not_mem_typedefIndex (h : s.Files f) {name : String}
    (hname : ∀ p ∈ f.typedefs, p.2.qualifiedName ≠ name) : name ∉ s.typedefIndex.keys := by
  intro hmem
  rw [Table.keys, h.sound.typedefIndex, List.map_map] at hmem
  obtain ⟨e, he, heq⟩ := List.mem_map.1 hmem
  have hvalue : e.2 ∈ s.typedefs.values := List.mem_map_of_mem he
  rw [h.typedefs] at hvalue
  obtain ⟨p, hp, hentity⟩ := List.mem_map.1 hvalue
  refine hname p hp ?_
  rw [← heq, Function.comp_apply, ← hentity]
  rfl

theorem type (h : s.Files f) (r : TypeRecord)
    (hname : ∀ p ∈ f.types, p.2.qualifiedName ≠ r.qualifiedName) :
    ∃ id s', s.declareType r = (.ok id, s') ∧
      s'.Files { f with types := f.types ++ [(id, r)] } := by
  have hnew := h.not_mem_byName hname
  refine ⟨⟨s.nextId⟩, _, addType_of_not_mem hnew, ?_⟩
  exact {
    h with
    sound := h.sound.withType rfl hnew
    types := by
      rw [withType, Table.values_insert h.sound.fresh_type, h.types, List.map_append]
      rfl
    owned := fun o ho => by
      rw [withType, Table.keys_insert h.sound.fresh_type]
      exact List.mem_append_left _ (h.owned o ho) }

/-- A reference that nothing has yet. -/
theorem reference (h : s.Files f) (typeString : String) :
    (s.withReference (s.nextReference typeString)).Files f := by
  have hfresh := h.sound.fresh_reference
  exact {
    h with
    sound := h.sound.withReference rfl (by simp [nextReference, Reference.ofTypeString])
    unresolved := by
      rw [withReference, Table.values_insert hfresh, List.forall_mem_append]
      refine ⟨h.unresolved, fun r hr => ?_⟩
      obtain rfl := List.mem_singleton.1 hr
      rfl
    references := fun l hl => by
      rw [withReference, Table.find?_insert, if_neg, h.references l hl]
      rintro heq
      exact hfresh (heq ▸ Table.mem_keys_of_find? (h.references l hl)) }

/-- The next reference is none of those that have been declared. -/
theorem next_not_mem_links (h : s.Files f) : ⟨s.nextId⟩ ∉ f.links.map Prod.fst := by
  intro hmem
  obtain ⟨l, hl, heq⟩ := List.mem_map.1 hmem
  exact h.sound.fresh_reference (heq ▸ Table.mem_keys_of_find? (h.references l hl))

theorem typedef (h : s.Files f) (r : TypedefRecord)
    (hname : ∀ p ∈ f.typedefs, p.2.qualifiedName ≠ r.qualifiedName) :
    ∃ id s', s.declareTypedef r = (.ok id, s') ∧
      s'.Files { f with typedefs := f.typedefs ++ [(id, r)] } := by
  have hnew := h.not_mem_typedefIndex hname
  have hr := h.reference r.target
  have hfind : (s.withReference (s.nextReference r.target)).references.find? ⟨s.nextId⟩ =
      some (s.nextReference r.target) := by
    rw [withReference, Table.find?_insert, if_pos rfl]
  have hlinks : ∀ l, l ∈ ({ f with typedefs := f.typedefs ++ [(⟨s.nextId + 1⟩, r)] } :
      Filing).links ↔ l ∈ f.links ∨ l = (⟨s.nextId⟩, r.link) := by
    intro l
    simp only [Filing.links, List.map_append, List.mem_append, List.map_cons, List.map_nil,
      List.mem_singleton]
    tauto
  refine ⟨⟨s.nextId + 1⟩, _, addTypedef_of_not_mem hnew, ?_⟩
  exact {
    hr with
    sound := hr.sound.withTypedef rfl hnew (Table.mem_keys_of_find? hfind)
    typedefs := by
      rw [withTypedef, Table.values_insert hr.sound.fresh_typedef, hr.typedefs, List.map_append]
      rfl
    references := fun l hl => by
      rcases (hlinks l).1 hl with hl | rfl
      · exact hr.references l hl
      · exact hfind
    links := by
      have hnodup := List.nodup_cons.2 ⟨h.next_not_mem_links, h.links⟩
      simp only [Filing.links, List.map_append, List.append_assoc] at hnodup ⊢
      exact (List.nodup_middle.2 hnodup) }

variable {gs : List (TypeId × DeclaredParts)} {id : TypeId} {ps : DeclaredParts}

/-- A type that has no parts yet. -/
theorem opened (h : s.Files f) (hid : id ∈ s.types.keys) (hnew : id ∉ f.parts.map Prod.fst) :
    s.Files { f with parts := f.parts ++ [(id, {})] } := by
  have hlinks : ({ f with parts := f.parts ++ [(id, {})] } : Filing).links = f.links := by
    simp [Filing.links]
  exact {
    h with
    bases := by rw [entities_concat, h.bases]; exact (List.append_nil _).symm
    arguments := by rw [entities_concat, h.arguments]; exact (List.append_nil _).symm
    members := by rw [entities_concat, h.members]; exact (List.append_nil _).symm
    owned := by
      rw [List.map_append, List.forall_mem_append]
      exact ⟨h.owned, fun o ho => List.mem_singleton.1 ho ▸ hid⟩
    owners := by
      rw [List.map_append]
      exact List.concat_eq_append ▸ List.Nodup.concat hnew h.owners
    references := hlinks ▸ h.references
    links := hlinks ▸ h.links }

theorem base (h : s.Files { f with parts := gs ++ [(id, ps)] }) (r : LinkRecord) :
    ∃ bid s', s.addBase id r.typeString = (.ok bid, s') ∧ s'.Files
      { f with parts := gs ++ [(id, { ps with bases := ps.bases ++ [(bid, r)] })] } := by
  have hid : id ∈ s.types.keys := h.owned id (by simp)
  have hcount : (s.basesOf id).length = ps.bases.length := by
    rw [h.sound.basesOf_eq id h.baseIds, List.length_mergeSort, h.bases,
      filter_entities BaseEdge.owner (fun _ _ _ _ => rfl) h.owners (g := (id, ps)) (by simp),
      length_placed]
  have hlinks : ∀ bases, ({ f with parts := gs ++ [(id, { ps with bases })] } : Filing).links =
      ({ f with parts := gs ++ [(id, ps)] } : Filing).links := fun _ => links_concat f rfl
  refine ⟨⟨s.nextId⟩, _, addBase_of_mem hid _, ?_⟩
  rw [hcount]
  exact {
    h with
    sound := h.sound.withBase rfl hid (by simp)
    bases := by
      rw [withBase, Table.values_insert h.sound.fresh_base, h.bases, entities_concat,
        entities_concat, placed_concat, List.append_assoc]
      rfl
    arguments := h.arguments.trans (entities_concat_congr rfl)
    members := h.members.trans (entities_concat_congr rfl)
    baseIds := h.sound.rises_insert (by simp [numbersByKind]) h.sound.baseId h.baseIds rfl
    owned := map_fst_concat gs id ps _ ▸ h.owned
    owners := map_fst_concat gs id ps _ ▸ h.owners
    references := by rw [hlinks]; exact h.references
    links := by rw [hlinks]; exact h.links }

theorem argument (h : s.Files { f with parts := gs ++ [(id, ps)] }) (r : LinkRecord) :
    ∃ aid s', s.addArgument id r.typeString = (.ok aid, s') ∧ s'.Files
      { f with parts := gs ++ [(id, { ps with arguments := ps.arguments ++ [(aid, r)] })] } := by
  have hid : id ∈ s.types.keys := h.owned id (by simp)
  have hcount : (s.argumentsOf id).length = ps.arguments.length := by
    rw [h.sound.argumentsOf_eq id h.argumentIds, List.length_mergeSort, h.arguments,
      filter_entities TemplateArgument.owner (fun _ _ _ _ => rfl) h.owners (g := (id, ps))
        (by simp),
      length_placed]
  have hlinks : ∀ arguments,
      ({ f with parts := gs ++ [(id, { ps with arguments })] } : Filing).links =
        ({ f with parts := gs ++ [(id, ps)] } : Filing).links := fun _ => links_concat f rfl
  refine ⟨⟨s.nextId⟩, _, addArgument_of_mem hid _, ?_⟩
  rw [hcount]
  exact {
    h with
    sound := h.sound.withArgument rfl hid (by simp)
    bases := h.bases.trans (entities_concat_congr rfl)
    arguments := by
      rw [withArgument, Table.values_insert h.sound.fresh_argument, h.arguments, entities_concat,
        entities_concat, placed_concat, List.append_assoc]
      rfl
    members := h.members.trans (entities_concat_congr rfl)
    argumentIds :=
      h.sound.rises_insert (by simp [numbersByKind]) h.sound.argumentId h.argumentIds rfl
    owned := map_fst_concat gs id ps _ ▸ h.owned
    owners := map_fst_concat gs id ps _ ▸ h.owners
    references := by rw [hlinks]; exact h.references
    links := by rw [hlinks]; exact h.links }

theorem member (h : s.Files { f with parts := gs ++ [(id, ps)] }) (r : MemberRecord) :
    ∃ mid s', s.declareMember id r = (.ok mid, s') ∧ s'.Files
      { f with parts := gs ++ [(id, { ps with members := ps.members ++ [(mid, r)] })] } := by
  have hid : id ∈ s.types.keys := h.owned id (by simp)
  have hcount : (s.membersOf id).length = ps.members.length := by
    rw [h.sound.membersOf_eq id h.memberIds, List.length_mergeSort, h.members,
      filter_entities Member.owner (fun _ _ _ _ => rfl) h.owners (g := (id, ps)) (by simp),
      length_placed]
  have hr := h.reference r.typeString
  have hfind : (s.withReference (s.nextReference r.typeString)).references.find? ⟨s.nextId⟩ =
      some (s.nextReference r.typeString) := by
    rw [withReference, Table.find?_insert, if_pos rfl]
  have hlinks : ({ f with
      parts := gs ++ [(id, { ps with members := ps.members ++ [(⟨s.nextId + 1⟩, r)] })] } :
      Filing).links = ({ f with parts := gs ++ [(id, ps)] } : Filing).links ++
        [(⟨s.nextId⟩, r.link)] := by
    simp [Filing.links, Id.reference]
  refine ⟨⟨s.nextId + 1⟩, _, addMember_of_mem hid _, ?_⟩
  dsimp only
  rw [hcount]
  exact {
    hr with
    sound := hr.sound.withMember rfl hid fun rid hrid => by
      obtain rfl := Option.some.inj hrid
      exact Table.mem_keys_of_find? hfind
    bases := hr.bases.trans (entities_concat_congr rfl)
    arguments := hr.arguments.trans (entities_concat_congr rfl)
    members := by
      rw [withMember, Table.values_insert hr.sound.fresh_member, hr.members, entities_concat,
        entities_concat, placed_concat, List.append_assoc]
      rfl
    memberIds := hr.sound.rises_insert (by simp [numbersByKind]) hr.sound.memberId hr.memberIds rfl
    owned := map_fst_concat gs id ps _ ▸ hr.owned
    owners := map_fst_concat gs id ps _ ▸ hr.owners
    references := by
      rw [hlinks, List.forall_mem_append]
      refine ⟨hr.references, fun l hl => ?_⟩
      obtain rfl := List.mem_singleton.1 hl
      exact hfind
    links := by
      rw [hlinks, List.map_append]
      exact List.concat_eq_append ▸ List.Nodup.concat h.next_not_mem_links h.links }

end Files

/-! ## The whole document -/

/-- Declarations that keep an invariant succeed one after the other. -/
theorem declareEach_of_steps {α ι : Type} {declare : Store → α → Except StoreError ι × Store}
    {I : List (ι × α) → Store → Prop} (as : List α) (hstart : I [] s)
    (hstep : ∀ done t a, done.map Prod.snd ++ [a] <+: as → I done t →
      ∃ id t', declare t a = (.ok id, t') ∧ I (done ++ [(id, a)]) t') :
    ∃ declared s', declareEach declare s as = .ok (declared, s') ∧
      declared.map Prod.snd = as ∧ I declared s' := by
  -- on what is left, for all that has been declared before
  have hrest : ∀ rest done t, done.map Prod.snd ++ rest = as → I done t →
      ∃ declared s', declareEach declare t rest = .ok (declared, s') ∧
        declared.map Prod.snd = rest ∧ I (done ++ declared) s' := by
    intro rest
    induction rest with
    | nil => exact fun done t _ h => ⟨[], t, rfl, rfl, (List.append_nil done).symm ▸ h⟩
    | cons a rest ih =>
      intro done t has h
      obtain ⟨id, t', hdeclare, h'⟩ := hstep done t a ⟨rest, by simp [← has]⟩ h
      obtain ⟨declared, s', hok, hrecords, hdone⟩ := ih (done ++ [(id, a)]) t' (by simp [← has]) h'
      refine ⟨(id, a) :: declared, s', ?_, by rw [List.map_cons, hrecords], by simpa using hdone⟩
      rw [declareEach, hdeclare]
      simp only [hok]
      rfl
  simpa using hrest as [] s rfl hstart

/-- What types declare, type by type. -/
theorem Files.exists_parts (rs : List (TypeId × TypeRecord)) : ∀ {s : Store} {f : Filing},
    s.Files f → (∀ r ∈ rs, r ∈ f.types) → (f.parts.map Prod.fst ++ rs.map Prod.fst).Nodup →
      ∃ gs s', s.declareParts rs = .ok (.flatten gs, s') ∧ List.Forall₂ Covers rs gs ∧
        s'.Files { f with parts := f.parts ++ gs } := by
  induction rs with
  | nil => exact fun {s f} h _ _ => ⟨[], s, rfl, .nil, by simpa using h⟩
  | cons r rs ih =>
    intro s f h hrs hnodup
    obtain ⟨id, r⟩ := r
    have hid : id ∈ s.types.keys := by
      rw [h.keys_types]
      exact List.mem_map_of_mem (hrs (id, r) List.mem_cons_self)
    have hnew : id ∉ f.parts.map Prod.fst := fun hmem =>
      List.disjoint_of_nodup_append hnodup hmem List.mem_cons_self
    obtain ⟨bases, s₁, hbases, hbaseRecords, h₁⟩ := declareEach_of_steps
      (I := fun done t => t.Files { f with parts := f.parts ++ [(id, ⟨done, [], []⟩)] })
      r.bases (h.opened hid hnew) fun _ _ b _ ht => ht.base b
    obtain ⟨arguments, s₂, harguments, hargumentRecords, h₂⟩ := declareEach_of_steps
      (I := fun done t => t.Files { f with parts := f.parts ++ [(id, ⟨bases, done, []⟩)] })
      r.arguments h₁ fun _ _ a _ ht => ht.argument a
    obtain ⟨members, s₃, hmembers, hmemberRecords, h₃⟩ := declareEach_of_steps
      (I := fun done t => t.Files { f with parts := f.parts ++ [(id, ⟨bases, arguments, done⟩)] })
      r.members h₂ fun _ _ m _ ht => ht.member m
    obtain ⟨gs, s₄, hok, hcovers, h₄⟩ := ih h₃ (fun r hr => hrs r (List.mem_cons_of_mem _ hr))
      (by simpa using hnodup)
    refine ⟨(id, ⟨bases, arguments, members⟩) :: gs, s₄, ?_,
      .cons ⟨rfl, hbaseRecords, hargumentRecords, hmemberRecords⟩ hcovers, by simpa using h₄⟩
    rw [declareParts, hbases]
    simp only [bind, Except.bind, harguments, hmembers, hok]
    rfl

end Store

/-- **A document whose names are distinct is declared as a whole.** -/
theorem Document.Distinct.exists_files {d : Document} (hd : d.Distinct) :
    ∃ f s, Store.declareDocument d = .ok (f.declared, s) ∧ s.Files f ∧ f.Complete d := by
  -- a name that has been declared is not that of a later record
  have hfresh : ∀ {ι ρ : Type} {name : ρ → String} {rs : List ρ} {done : List (ι × ρ)} {r : ρ},
      (rs.map name).Nodup → done.map Prod.snd ++ [r] <+: rs → ∀ p ∈ done, name p.2 ≠ name r := by
    intro ι ρ name rs done r hrs hdone p hp heq
    have hnodup := hrs.sublist (hdone.map name).sublist
    rw [List.map_append, List.map_map] at hnodup
    refine List.disjoint_of_nodup_append hnodup (List.mem_map_of_mem hp) ?_
    rw [Function.comp_apply, heq]
    exact List.mem_cons_self
  obtain ⟨types, s₁, htypes, htypeRecords, h₁⟩ := Store.declareEach_of_steps
    (I := fun done t => t.Files { types := done }) d.types Store.files_empty
    fun done t r hdone ht => ht.type r (hfresh hd.types hdone)
  obtain ⟨typedefs, s₂, htypedefs, htypedefRecords, h₂⟩ := Store.declareEach_of_steps
    (I := fun done t => t.Files { types, typedefs := done }) d.typedefs h₁
    fun done t r hdone ht => ht.typedef r (hfresh hd.typedefs hdone)
  have hids : (types.map Prod.fst).Nodup := h₂.keys_types ▸ h₂.sound.types_nodup
  obtain ⟨gs, s₃, hparts, hcovers, h₃⟩ := h₂.exists_parts types (fun _ hr => hr) hids
  refine ⟨⟨types, typedefs, gs⟩, s₃, ?_, h₃, htypeRecords, htypedefRecords, hcovers⟩
  rw [Store.declareDocument, htypes]
  simp only [bind, Except.bind, htypedefs, hparts]
  rfl

end DeclGraph
