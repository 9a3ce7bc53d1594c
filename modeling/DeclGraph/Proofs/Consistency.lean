import DeclGraph.Proofs.Reachable

/-!
# Stores are consistent

What can be relied on when a store is read: its numbers name one entity each, its indexes answer
what its tables hold, and whatever an entity names can be looked up.

* `Store.Consistent`: the whole of it, in terms of look-ups.
* `Store.Increasing`: numbers grow, so that the order of numbers is the one in which types came in.
* `Store.Sound.consistent`: what is sound and increasing is consistent.
* `Store.consistent_of_reachable`: **every store is consistent**, and every store of a document.
-/

namespace DeclGraph

/-- A list of identities has, each once, those of the values of a table for which `p` holds. -/
def Table.ListedBy {e : Entity} {α : Type} (t : Table (Id e) α) (p : α → Prop)
    (ids : List (Id e)) : Prop :=
  ids.Nodup ∧ ∀ id, id ∈ ids ↔ ∃ a, t.find? id = some a ∧ p a

namespace Store

/-- The tables, the indexes and the counter of a store agree. The numbers in use are those of the
entities that are filed and of the references that are staged. -/
structure Consistent (s : Store) : Prop where
  lt_nextId : ∀ n ∈ s.numbers, n < s.nextId
  numbers_nodup : s.numbers.Nodup
  typeId : ∀ id n, s.types.find? id = some n → n.id = id
  referenceId : ∀ id r, s.references.find? id = some r → r.id = id
  memberId : ∀ id m, s.members.find? id = some m → m.id = id
  baseId : ∀ id b, s.bases.find? id = some b → b.id = id
  argumentId : ∀ id a, s.arguments.find? id = some a → a.id = id
  typedefId : ∀ id t, s.typedefs.find? id = some t → t.id = id
  names_distinct : ∀ id id' n n', s.types.find? id = some n → s.types.find? id' = some n' →
    n.qualifiedName = n'.qualifiedName → id = id'
  byName : ∀ name id, s.byName.find? name = some id ↔
    ∃ n, s.types.find? id = some n ∧ n.qualifiedName = name
  byBaseName : ∀ name,
    s.types.ListedBy (fun n => Name.canonical n.baseName = name) (s.byBaseName.list name)
  byBaseName_increasing : ∀ name, (s.byBaseName.list name).Pairwise (·.val < ·.val)
  membersByType : ∀ owner, s.members.ListedBy (·.owner = owner) (s.membersByType.list owner)
  basesByType : ∀ owner, s.bases.ListedBy (·.owner = owner) (s.basesByType.list owner)
  argumentsByType : ∀ owner, s.arguments.ListedBy (·.owner = owner) (s.argumentsByType.list owner)
  typedefIndex : ∀ name t, s.typedefIndex.find? name = some t ↔
    ∃ id, s.typedefs.find? id = some t ∧ t.qualifiedName = name
  memberOwner : ∀ id m, s.members.find? id = some m → s.types.contains m.owner = true
  memberReference : ∀ id m r, s.members.find? id = some m → m.reference = some r →
    s.references.contains r = true
  baseOwner : ∀ id b, s.bases.find? id = some b → s.types.contains b.owner = true
  baseTarget : ∀ id b t, s.bases.find? id = some b → b.target = some t →
    s.types.contains t = true
  argumentOwner : ∀ id a, s.arguments.find? id = some a → s.types.contains a.owner = true
  argumentReference : ∀ id a r, s.arguments.find? id = some a → a.reference = some r →
    s.references.contains r = true
  typedefTarget : ∀ id t, s.typedefs.find? id = some t → s.references.contains t.target = true
  referenceTarget : ∀ id r t, s.references.find? id = some r → r.target = some t →
    s.types.contains t = true

/-- Types are filed in the order of their numbers. -/
def Increasing (s : Store) : Prop := s.types.keys.Pairwise (·.val < ·.val)

variable {s s' : Store}

/-! ## The order of numbers -/

theorem Numbered.increasing_grows (h : s.Numbered) (ho : s.Increasing) (hs : s.Grows s') :
    s'.Increasing := by
  cases hs with
  | number e => exact ho
  | reference => exact ho
  | type =>
    rw [Increasing, withType, Table.keys_insert h.fresh_type]
    refine List.pairwise_append.2 ⟨ho, List.pairwise_singleton _ _, fun id hid id' hid' => ?_⟩
    rw [List.mem_singleton.1 hid']
    refine h.lt id.val (List.mem_flatten.2 ⟨s.types.keys.map Id.val, ?_, ?_⟩)
    · simp [numbersByKind]
    · exact List.mem_map_of_mem hid
  | member => exact ho
  | base => exact ho
  | argument => exact ho
  | typedef => exact ho

theorem Sound.increasing_declares (h : s.Sound) (ho : s.Increasing) (hs : s.Declares s') :
    s'.Increasing := by
  induction hs with
  | refl => exact ho
  | tail hbefore hstep ih => exact (h.declares hbefore).increasing_grows ih hstep

theorem Stages.increasing (h : s.Stages s') (ho : s.Increasing) : s'.Increasing := by
  obtain ⟨b, n, -, rfl⟩ := h
  exact ho

theorem Increasing.flush (ho : s.Increasing) : s.flush.value.2.Increasing := by
  by_cases ha : s.Admitted
  · rw [value_flush_of_admitted ha, Increasing, keys_types_committed]
    exact ho
  · obtain ⟨e, he⟩ := value_flush_of_not_admitted ha
    rw [he]
    exact ho

theorem Sound.increasing_perform (h : s.Sound) (ho : s.Increasing) (o : Operation) :
    (s.perform o).Increasing := by
  rcases h.perform_cases o with hdeclares | ⟨s₁, hstages, -, hstaged | hflush⟩
  · exact h.increasing_declares ho hdeclares
  · exact hstaged ▸ hstages.increasing ho
  · exact hflush ▸ (hstages.increasing ho).flush

theorem Reachable.increasing (h : s.Reachable) : s.Increasing := by
  have hkeeps := Leads.keeps (P := fun t => t.Sound ∧ t.Increasing) h
    (fun _ o ht => ⟨ht.1.perform o, ht.1.increasing_perform ht.2 o⟩) ⟨sound_empty, .nil⟩
  exact hkeeps.2

/-! ## Look-ups -/

/-- An index that lists entries of a table in order lists their identities, each once. -/
theorem listedBy_filter {e : Entity} {α : Type} {t : Table (Id e) α} {p : α → Prop}
    [DecidablePred p] {ids : List (Id e)} (hnodup : t.keys.Nodup)
    (hids : ids = (t.entries.filter fun e => p e.2).map Prod.fst) : t.ListedBy p ids := by
  subst hids
  refine ⟨hnodup.sublist ((List.filter_sublist).map Prod.fst), fun id => ?_⟩
  simp only [List.mem_map, List.mem_filter, decide_eq_true_eq, Prod.exists, exists_and_right,
    exists_eq_right, Table.find?_eq_some_iff hnodup]

theorem Sound.byName_iff (h : s.Sound) {name : String} {id : TypeId} :
    s.byName.find? name = some id ↔ ∃ n, s.types.find? id = some n ∧ n.qualifiedName = name := by
  rw [Table.find?_eq_some_iff h.typeNames, h.byName, List.mem_map]
  constructor
  · rintro ⟨⟨id, n⟩, he, heq⟩
    obtain ⟨rfl, rfl⟩ := Prod.mk.inj heq
    exact ⟨n, Table.find?_of_mem_entries h.types_nodup he, rfl⟩
  · rintro ⟨n, hn, rfl⟩
    exact ⟨(id, n), Table.mem_entries_of_find? hn, rfl⟩

theorem typeByName?_eq_some {name : String} {n : DeclaredType} (h : s.Sound) :
    s.typeByName? name = some n ↔ n ∈ s.types.values ∧ n.qualifiedName = name := by
  constructor
  · intro hn
    obtain ⟨id, hid, hn⟩ := Option.bind_eq_some_iff.1 hn
    obtain ⟨n', hn', hname⟩ := h.byName_iff.1 hid
    obtain rfl := Option.some.inj (hn'.symm.trans hn)
    exact ⟨Table.mem_values_of_find? hn, hname⟩
  · rintro ⟨hn, hname⟩
    have hfind := Table.find?_of_mem_values h.types_nodup h.typeId hn
    exact Option.bind_eq_some_iff.2 ⟨n.id, h.byName_iff.2 ⟨n, hfind, hname⟩, hfind⟩

theorem Sound.typedefIndex_iff (h : s.Sound) {name : String} {t : Typedef} :
    s.typedefIndex.find? name = some t ↔
      ∃ id, s.typedefs.find? id = some t ∧ t.qualifiedName = name := by
  rw [Table.find?_eq_some_iff h.typedefNames, h.typedefIndex, List.mem_map]
  constructor
  · rintro ⟨⟨id, t⟩, he, heq⟩
    obtain ⟨rfl, rfl⟩ := Prod.mk.inj heq
    exact ⟨id, Table.find?_of_mem_entries h.typedefs_nodup he, rfl⟩
  · rintro ⟨id, ht, rfl⟩
    exact ⟨(id, t), Table.mem_entries_of_find? ht, rfl⟩

theorem Sound.consistent (h : s.Sound) (ho : s.Increasing) : s.Consistent where
  lt_nextId := h.lt
  numbers_nodup := h.nodup
  typeId _ _ hn := h.typeId _ (Table.mem_entries_of_find? hn)
  referenceId _ _ hr := h.referenceId _ (Table.mem_entries_of_find? hr)
  memberId _ _ hm := h.memberId _ (Table.mem_entries_of_find? hm)
  baseId _ _ hb := h.baseId _ (Table.mem_entries_of_find? hb)
  argumentId _ _ ha := h.argumentId _ (Table.mem_entries_of_find? ha)
  typedefId _ _ ht := h.typedefId _ (Table.mem_entries_of_find? ht)
  names_distinct id id' n n' hn hn' hname := by
    have hid : s.byName.find? n.qualifiedName = some id := h.byName_iff.2 ⟨n, hn, rfl⟩
    have hid' : s.byName.find? n.qualifiedName = some id' := h.byName_iff.2 ⟨n', hn', hname.symm⟩
    exact Option.some.inj (hid.symm.trans hid')
  byName _ _ := h.byName_iff
  byBaseName name := listedBy_filter h.types_nodup (h.byBaseName name)
  byBaseName_increasing name := by
    rw [h.byBaseName name]
    exact ho.sublist ((List.filter_sublist).map Prod.fst)
  membersByType owner := listedBy_filter h.members_nodup (h.membersByType owner)
  basesByType owner := listedBy_filter h.bases_nodup (h.basesByType owner)
  argumentsByType owner := listedBy_filter h.arguments_nodup (h.argumentsByType owner)
  typedefIndex _ _ := h.typedefIndex_iff
  memberOwner _ _ hm := Table.contains_iff.2 (h.memberOwner _ (Table.mem_entries_of_find? hm))
  memberReference _ _ r hm hr :=
    Table.contains_iff.2 (h.memberReference _ (Table.mem_entries_of_find? hm) r hr)
  baseOwner _ _ hb := Table.contains_iff.2 (h.baseOwner _ (Table.mem_entries_of_find? hb))
  baseTarget _ _ t hb ht :=
    Table.contains_iff.2 (h.baseTarget _ (Table.mem_entries_of_find? hb) t ht)
  argumentOwner _ _ ha := Table.contains_iff.2 (h.argumentOwner _ (Table.mem_entries_of_find? ha))
  argumentReference _ _ r ha hr :=
    Table.contains_iff.2 (h.argumentReference _ (Table.mem_entries_of_find? ha) r hr)
  typedefTarget _ _ ht := Table.contains_iff.2 (h.typedefTarget _ (Table.mem_entries_of_find? ht))
  referenceTarget _ _ t hr ht :=
    Table.contains_iff.2 (h.referenceTarget _ (Table.mem_entries_of_find? hr) t ht)

/-- **Every store is consistent**: those that operations lead to, whether they succeeded or not, and
those that documents are imported into. -/
theorem consistent_of_reachable
    (h : s.Reachable ∨ ∃ d : Document, d.toStore.value = .ok s) : s.Consistent := by
  have hreachable : s.Reachable := by
    rcases h with h | ⟨d, hd⟩
    · exact h
    · exact Document.reachable_toStore hd
  exact hreachable.sound.consistent hreachable.increasing

/-- A store with refused declarations, of which the references 6 and 10 are left, and with a refused
batch. -/
def refusals : Store :=
  [.addType { name := "Foo", kind := .struct }, .addType { name := "Foo", kind := .union },
    .addMember ⟨1⟩ { name := "x", typeString := "A" },
    .addBase ⟨9⟩ "Foo", .addMember ⟨9⟩ { name := "y", typeString := "Foo" },
    Operation.addTypedef "" "A" "Foo", Operation.addTypedef "" "A" "int", .addArgument ⟨1⟩ "Foo",
    .stageReference (.ofTypeString ⟨0⟩ "Foo"), .stageSizes [(⟨9⟩, 4)], .flush, .resolve 25,
    .layOut true].foldl perform empty

theorem reachable_refusals : refusals.Reachable := leads_foldl _ _

/-- A document with everything that a document can have. -/
def recorded : Document where
  types := [{ name := "Foo", kind := .struct, size := some 8 }, {
    name := "S", kind := .class_, size := some 16
    bases := [{ typeString := "Foo", resolved := some "Foo" }]
    arguments := [{ typeString := "int", primitive := true }, { typeString := "int" }]
    members := [{ name := "x", typeString := "A", offset := some 8, resolved := some "Foo" }] }]
  typedefs := [{ name := "A", target := "Foo", resolved := some "Foo" }]

theorem consistent_of_reachable_refusals : refusals.Reachable ∧ refusals.Consistent ∧
    refusals.references.keys = [⟨3⟩, ⟨6⟩, ⟨8⟩, ⟨10⟩, ⟨14⟩] ∧
    ∃ s, recorded.toStore.value = .ok s ∧ s.Consistent := by
  refine ⟨reachable_refusals, consistent_of_reachable (.inl reachable_refusals),
    by decide +kernel, ?_⟩
  have hok : recorded.toStore.value.isOk = true := by decide +kernel
  cases hstore : recorded.toStore.value with
  | error e =>
    rw [hstore] at hok
    cases hok
  | ok s => exact ⟨s, rfl, consistent_of_reachable (.inr ⟨recorded, hstore⟩)⟩

end Store

end DeclGraph
