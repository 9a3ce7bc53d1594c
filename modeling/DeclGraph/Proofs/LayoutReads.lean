import DeclGraph.Layout.Input
import DeclGraph.Proofs.Representation
import DeclGraph.Proofs.Scopes

/-!
# What layout reads of a store

Layout works on declarations that it has taken out of a store. What it finds there is what the store
says, as far as it asks.

* `Table.find?_ofPairs`: a table made of pairs that agree with a function.
* `Store.declared?`: what a name is declared as, innermost scope first.
* `Store.Sound.layout_find?`: layout finds just that, unless it takes the rest of a name that starts
  with `::` for a name of an inner scope.
* `Store.Sound.layout_basesOf`, `Store.Sound.layout_membersOf`,
  `Store.Sound.layout_memberReference`, `Store.Sound.layout_typedefTarget`: the bases and members of
  aggregates, the references of members, and the targets of typedefs.
* `Store.Ordered.layoutInput_eq`: what layout reads if nothing has to be sorted.
-/

namespace DeclGraph

open Name

namespace Table

variable {κ α : Type} [DecidableEq κ]

theorem find?_ofPairs {f : κ → Option α} {ps : List (κ × α)} (hf : ∀ p ∈ ps, f p.1 = some p.2)
    (k : κ) : (ofPairs ps).find? k = if k ∈ ps.map Prod.fst then f k else none := by
  have hfold : ∀ t : Table κ α, (ps.foldl (fun t p => t.insert p.1 p.2) t).find? k =
      if k ∈ ps.map Prod.fst then f k else t.find? k := by
    induction ps with
    | nil => exact fun _ => rfl
    | cons p ps ih =>
      intro t
      rw [List.forall_mem_cons] at hf
      rw [List.foldl_cons, ih hf.2, find?_insert, List.map_cons]
      by_cases hmem : k ∈ ps.map Prod.fst
      · rw [if_pos hmem, if_pos (List.mem_cons_of_mem _ hmem)]
      · by_cases hk : k = p.1
        · subst hk
          rw [if_neg hmem, if_pos rfl, if_pos List.mem_cons_self, hf.1]
        · rw [if_neg hmem, if_neg hk, if_neg fun h => hmem ((List.mem_cons.1 h).resolve_left hk)]
  exact hfold empty

theorem find?_ofPairs_of_mem {f : κ → Option α} {ps : List (κ × α)}
    (hf : ∀ p ∈ ps, f p.1 = some p.2) {k : κ} {a : α} (h : (k, a) ∈ ps) :
    (ofPairs ps).find? k = some a := by
  rw [find?_ofPairs hf, if_pos (List.mem_map_of_mem h), hf _ h]

/-- A table is found again in the table of its entries. -/
theorem find?_ofPairs_entries {t : Table κ α} (hnodup : t.keys.Nodup) (k : κ) :
    (ofPairs t.entries).find? k = t.find? k := by
  rw [find?_ofPairs fun p hp => find?_of_mem_entries hnodup hp]
  split
  · rfl
  · next hk => exact (find?_eq_none_iff.2 hk).symm

end Table

namespace Store

/-- The entries that are picked are those of the table. -/
theorem find?_pick {κ α : Type} [DecidableEq κ] (t : Table κ α) {keys : List κ} {k : κ}
    (hk : k ∈ keys) : (pick t keys).find? k = t.find? k := by
  have hf : ∀ p ∈ keys.filterMap fun k => (t.find? k).map (k, ·), t.find? p.1 = some p.2 := by
    intro p hp
    obtain ⟨k, -, h⟩ := List.mem_filterMap.1 hp
    obtain ⟨a, ha, rfl⟩ := Option.map_eq_some_iff.1 h
    exact ha
  rw [pick, Table.find?_ofPairs hf]
  split
  · rfl
  · next hnot =>
    cases ha : t.find? k with
    | none => rfl
    | some a =>
      refine absurd (List.mem_map.2 ⟨(k, a), List.mem_filterMap.2 ⟨k, hk, ?_⟩, rfl⟩) hnot
      rw [ha, Option.map_some]

/-- What a qualified name is declared as. A type comes before a typedef of the same name. -/
def named? (s : Store) (name : String) : Option Named :=
  match s.byName.find? name with
  | some id => some (.type id)
  | none => if s.typedefIndex.contains name then some (.typedef name) else none

/-- What a name is declared as in a scope: innermost first, and then as it stands. A name that
starts with `::` is declared in no scope. -/
def declared? (s : Store) (name scope : String) : Option Named :=
  (readings scope name).findSome? s.named?

/-- If a name starts with `::`, then no scope around declares the rest of it. -/
def Unscoped (s : Store) (name scope : String) : Prop :=
  isAbsolute name = true →
    ∀ space ∈ enclosing scope, s.named? (qualify space (relative name)) = none

instance (s : Store) (name scope : String) : Decidable (s.Unscoped name scope) :=
  inferInstanceAs (Decidable (_ → _))

section Reads

variable {s : Store} (h : s.Sound)

include h

theorem Sound.layout_byName (name : String) :
    s.layoutInput.byName.find? name = s.byName.find? name := by
  have hpairs : (s.types.values.map fun n => (n.qualifiedName, n.id)) = s.byName.entries := by
    rw [h.byName, Table.values, List.map_map]
    refine List.map_congr_left fun e he => ?_
    rw [Function.comp_apply, h.typeId e he]
  rw [layoutInput, hpairs]
  exact Table.find?_ofPairs_entries h.typeNames name

theorem Sound.layout_typedefs (name : String) :
    s.layoutInput.typedefs.find? name = s.typedefIndex.find? name := by
  have hpairs : TypedefIndex.ofList s.typedefs.values = Table.ofPairs s.typedefIndex.entries := by
    rw [h.typedefIndex, TypedefIndex.ofList, Table.values, Table.ofPairs, List.foldl_map,
      List.foldl_map]
    rfl
  rw [layoutInput, hpairs]
  exact Table.find?_ofPairs_entries h.typedefNames name

/-- Layout finds what a name is declared as. -/
theorem Sound.layout_find? {name scope : String} (hname : s.Unscoped name scope) :
    s.layoutInput.find? name scope = s.declared? name scope := by
  have hfind : s.layoutInput.find? name scope =
      (inScopes scope (relative name)).findSome? s.named? := by
    rw [LayoutInput.find?]
    congr 1
    funext candidate
    have hcontains : s.layoutInput.typedefs.contains candidate =
        s.typedefIndex.contains candidate := by
      rw [Table.contains, Table.contains, h.layout_typedefs]
    cases hid : s.byName.find? candidate <;>
      simp only [h.layout_byName, named?, hcontains, hid]
  rw [hfind, declared?, readings]
  cases habsolute : isAbsolute name with
  | true =>
    -- layout looks in all scopes, but there is nothing in the inner ones
    have hinner :
        ((enclosing scope).map (qualify · (relative name))).findSome? s.named? = none := by
      rw [List.findSome?_eq_none_iff]
      intro candidate hcandidate
      obtain ⟨space, hspace, rfl⟩ := List.mem_map.1 hcandidate
      exact hname habsolute space hspace
    rw [inScopes, List.findSome?_append, hinner, Option.none_or, if_pos rfl]
  | false => rw [relative_eq_self habsolute, if_neg Bool.false_ne_true]

/-- The members of a type are those that it owns. -/
theorem Sound.mem_membersOf_iff {id : TypeId} {m : Member} :
    m ∈ s.membersOf id ↔ s.members.find? m.id = some m ∧ m.owner = id := by
  rw [membersOf, List.mem_mergeSort, List.mem_filterMap]
  constructor
  · rintro ⟨mid, hmid, hfind⟩
    rw [h.membersByType] at hmid
    obtain ⟨e, he, rfl⟩ := List.mem_map.1 hmid
    obtain ⟨he, howner⟩ := List.mem_filter.1 he
    have hfind' := Table.find?_of_mem_entries h.members_nodup he
    obtain rfl := Option.some.inj (hfind'.symm.trans hfind)
    rw [h.memberId e he]
    exact ⟨hfind, of_decide_eq_true howner⟩
  · rintro ⟨hfind, howner⟩
    refine ⟨m.id, ?_, hfind⟩
    rw [h.membersByType]
    refine List.mem_map.2 ⟨(m.id, m), List.mem_filter.2 ⟨Table.mem_entries_of_find? hfind, ?_⟩, rfl⟩
    exact decide_eq_true howner

/-- A type has each of its members once. -/
theorem Sound.nodup_membersOf (id : TypeId) : ((s.membersOf id).map (·.id)).Nodup := by
  have hmembers : (s.membersOf id).Nodup := by
    rw [membersOf, (List.mergeSort_perm _ _).nodup_iff, h.membersByType]
    refine List.Nodup.filterMap (fun a b m ha hb => ?_)
      ((h.members_nodup.sublist (List.filter_sublist.map _)))
    have ha' := h.memberId _ (Table.mem_entries_of_find? ha)
    have hb' := h.memberId _ (Table.mem_entries_of_find? hb)
    exact ha'.symm.trans hb'
  refine hmembers.map_on fun a ha b hb hab => ?_
  have ha' := (h.mem_membersOf_iff.1 ha).1
  have hb' := (h.mem_membersOf_iff.1 hb).1
  rw [hab] at ha'
  exact Option.some.inj (ha'.symm.trans hb')

variable {id : TypeId} {n : DeclaredType} (hn : s.types.find? id = some n)
  (hagg : n.isAggregate = true)

include hn hagg

/-- What is read of each aggregate is found under its identity. -/
theorem Sound.find?_ofAggregates {α : Type} (f : TypeId → α) :
    (Table.ofPairs (((s.aggregates.map (·.id)).filter s.types.contains).map
      fun id => (id, f id))).find? id = some (f id) := by
  have hid : n.id = id := h.typeId _ (Table.mem_entries_of_find? hn)
  have hmem : id ∈ s.aggregates.map (·.id) :=
    List.mem_map.2 ⟨n, List.mem_filter.2 ⟨Table.mem_values_of_find? hn, hagg⟩, hid⟩
  have hcontains : s.types.contains id = true := Table.contains_iff.2 (Table.mem_keys_of_find? hn)
  refine Table.find?_ofPairs_of_mem (f := fun id => some (f id)) (fun p hp => ?_) ?_
  · obtain ⟨id, -, rfl⟩ := List.mem_map.1 hp
    rfl
  · exact List.mem_map.2 ⟨id, List.mem_filter.2 ⟨hmem, hcontains⟩, rfl⟩

theorem Sound.find?_layout_members :
    s.layoutInput.members.find? id = some (s.membersOf id) :=
  h.find?_ofAggregates hn hagg s.membersOf

theorem Sound.layout_basesOf : s.layoutInput.basesOf id = s.basesOf id := by
  have hbases : s.layoutInput.bases.find? id = some (s.basesOf id) :=
    h.find?_ofAggregates hn hagg s.basesOf
  rw [LayoutInput.basesOf, Table.list, hbases, Option.getD_some]

theorem Sound.layout_membersOf : s.layoutInput.membersOf id = s.membersOf id := by
  rw [LayoutInput.membersOf, Table.list, h.find?_layout_members hn hagg, Option.getD_some]

theorem Sound.layout_memberReference {m : Member} (hm : m ∈ s.membersOf id) {rid : ReferenceId}
    (hrid : m.reference = some rid) :
    s.layoutInput.references.find? rid = s.references.find? rid := by
  refine find?_pick _ (List.mem_append_left _ (List.mem_filterMap.2 ⟨m, ?_, hrid⟩))
  exact List.mem_flatten.2 ⟨_, Table.mem_values_of_find? (h.find?_layout_members hn hagg), hm⟩

omit hn hagg in
theorem Sound.layout_typedefTarget {name : String} {t : Typedef}
    (ht : s.typedefIndex.find? name = some t) :
    s.layoutInput.references.find? t.target = s.references.find? t.target := by
  refine find?_pick _ (List.mem_append_right _ (List.mem_map.2 ⟨t, ?_, rfl⟩))
  have hmem := Table.mem_entries_of_find? ht
  rw [h.typedefIndex] at hmem
  obtain ⟨e, he, heq⟩ := List.mem_map.1 hmem
  obtain ⟨-, rfl⟩ := Prod.mk.inj heq
  exact List.mem_map_of_mem he

end Reads

/-! ## Declarations in order -/

/-- The members of a type in the order of their declarations. -/
def declaredMembers (s : Store) (id : TypeId) : List Member :=
  (s.membersByType.list id).filterMap s.members.find?

/-- The bases of a type in the order of their declarations. -/
def declaredBases (s : Store) (id : TypeId) : List BaseEdge :=
  (s.basesByType.list id).filterMap s.bases.find?

/-- The members and the bases of aggregates are declared in source order. -/
def Ordered (s : Store) : Prop := ∀ n ∈ s.aggregates,
  (s.declaredMembers n.id).Pairwise
      (fun a b => pairLe (a.order.toNat, a.id.val) (b.order.toNat, b.id.val)) ∧
    (s.declaredBases n.id).Pairwise
      (fun a b => pairLe (a.order.toNat, a.id.val) (b.order.toNat, b.id.val))

instance (s : Store) : Decidable s.Ordered := List.decidableBAll _ _

/-- What layout reads of a store, in the order of the declarations. -/
def declaredInput (s : Store) : LayoutInput :=
  let aggregates := (s.aggregates.map (·.id)).filter s.types.contains
  let members := Table.ofPairs (aggregates.map fun id => (id, s.declaredMembers id))
  { types := s.types
    byName := Table.ofPairs (s.types.values.map fun n => (n.qualifiedName, n.id))
    members
    bases := Table.ofPairs (aggregates.map fun id => (id, s.declaredBases id))
    references := pick s.references
      (members.values.flatten.filterMap (·.reference) ++ s.typedefs.values.map (·.target))
    typedefs := TypedefIndex.ofList s.typedefs.values }

theorem Ordered.layoutInput_eq {s : Store} (h : s.Ordered) : s.layoutInput = s.declaredInput := by
  have hsorted : ∀ id ∈ (s.aggregates.map (·.id)).filter s.types.contains,
      s.membersOf id = s.declaredMembers id ∧ s.basesOf id = s.declaredBases id := by
    intro id hid
    obtain ⟨n, hn, rfl⟩ := List.mem_map.1 (List.mem_filter.1 hid).1
    exact ⟨List.mergeSort_of_pairwise (h n hn).1, List.mergeSort_of_pairwise (h n hn).2⟩
  have hmembers : s.membersOfEach (s.aggregates.map (·.id)) = Table.ofPairs
      (((s.aggregates.map (·.id)).filter s.types.contains).map
        fun id => (id, s.declaredMembers id)) := by
    rw [membersOfEach, List.map_congr_left fun id hid => by rw [(hsorted id hid).1]]
  have hbases : s.basesOfEach (s.aggregates.map (·.id)) = Table.ofPairs
      (((s.aggregates.map (·.id)).filter s.types.contains).map
        fun id => (id, s.declaredBases id)) := by
    rw [basesOfEach, List.map_congr_left fun id hid => by rw [(hsorted id hid).2]]
  simp only [layoutInput, declaredInput, hmembers, hbases]

end Store

end DeclGraph
