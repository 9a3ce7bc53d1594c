import DeclGraph.Proofs.Import
import DeclGraph.Proofs.LayoutReads

/-!
# Export and import

The document of a store is imported, and the document of what has been imported is the same. What
can be wrong with a document in general cannot be wrong with an exported one: its names are
distinct, it says no resolution twice, only function pointers have signatures, and members come in
their order.

* `Store.Recordable`: what makes a store one that a document can carry.
* `Store.Ingested`: the stores that ingesting and importing lead to. `Store.Ingested.recordable`:
  **documents can carry all of them.**
* `Store.Recordable.distinct_ofStore`, `Store.Recordable.kept_ofStore`: the exported document.
* `Store.export_import`: **the round trip.**
-/

namespace DeclGraph

open Name

namespace Store

/-- A store that a document can carry. -/
structure Recordable (s : Store) : Prop where
  names : ∀ n ∈ s.types.values, n.qualifiedName = canonical (qualify n.space n.baseName)
  signatures : ∀ m ∈ s.members.values, m.signature.isSome = true → m.isFunctionPointer = true
  references : ∀ r ∈ s.references.values, r.Clear
  staged : ∀ r ∈ s.staged.references, r.Clear

/-- The stores that recordable operations lead to, from the empty one or from that of a document. -/
def Ingested (s : Store) : Prop :=
  ∃ start, (start = empty ∨ ∃ d : Document, d.toStore.value = .ok start) ∧
    start.LeadsBy Operation.Recordable s

variable {s : Store}

theorem Ingested.leadsBy (h : s.Ingested) : empty.LeadsBy Operation.Recordable s := by
  obtain ⟨start, rfl | ⟨d, hd⟩, hrun⟩ := h
  · exact hrun
  · exact (Document.leadsBy_toStore hd).trans hrun

theorem Ingested.sound (h : s.Ingested) : s.Sound := h.leadsBy.leads.sound sound_empty

/-! ## What documents can carry -/

theorem recordable_empty : empty.Recordable where
  names _ h := by cases h
  signatures _ h := by cases h
  references _ h := by cases h
  staged _ h := by cases h

namespace Recordable

variable (h : s.Recordable)

include h

theorem stage {b : Batch} (hb : b.references = s.staged.references) :
    ({ s with staged := b } : Store).Recordable where
  __ := h
  names := h.names
  signatures := h.signatures
  references := h.references
  staged := hb ▸ h.staged

theorem discard : s.discard.Recordable where
  names := h.names
  signatures := h.signatures
  references := h.references
  staged _ hr := by cases hr

theorem stageReference {r : Reference} (hr : r.Clear) : (s.stageReference r).2.Recordable where
  names := h.names
  signatures := h.signatures
  references := h.references
  staged := by
    refine List.forall_mem_append.2 ⟨h.staged, fun r' hr' => ?_⟩
    obtain rfl := List.mem_singleton.1 hr'
    exact hr

theorem addReference (typeString : String) : (s.addReference typeString).2.Recordable where
  names := h.names
  signatures := h.signatures
  references := Table.forall_mem_values_insert h.references (.inl rfl)
  staged := h.staged

theorem addType (d : TypeDecl) : (s.addType d).2.Recordable := by
  by_cases hname : s.byName.contains d.qualifiedName = true
  · simp only [Store.addType, Store.fresh, hname, if_true]
    exact { h with }
  · simp only [Store.addType, Store.fresh, hname, Bool.false_eq_true, if_false]
    exact { h with names := Table.forall_mem_values_insert h.names rfl }

/-- A member leaves its reference, also if it is refused. -/
theorem addMember (owner : TypeId) {d : MemberDecl}
    (hd : d.signature.isSome = true → d.isFunctionPointer = true) :
    (s.addMember owner d).2.Recordable := by
  have hr := h.addReference d.typeString
  by_cases howner : s.types.contains owner = true
  · simp only [Store.addMember, Store.fresh, Store.addReference, howner, if_true]
    exact { hr with signatures := Table.forall_mem_values_insert hr.signatures hd }
  · simp only [Store.addMember, Store.fresh, Store.addReference, howner, Bool.false_eq_true,
      if_false]
    exact { hr with }

theorem addBase (owner : TypeId) (typeString : String) :
    (s.addBase owner typeString).2.Recordable := by
  by_cases howner : s.types.contains owner = true
  · simp only [Store.addBase, Store.fresh, howner, if_true]
    exact { h with }
  · simp only [Store.addBase, Store.fresh, howner, Bool.false_eq_true, if_false]
    exact { h with }

theorem addArgument (owner : TypeId) (typeString : String) :
    (s.addArgument owner typeString).2.Recordable := by
  by_cases howner : s.types.contains owner = true
  · simp only [Store.addArgument, Store.fresh, howner, if_true]
    exact { h with }
  · simp only [Store.addArgument, Store.fresh, howner, Bool.false_eq_true, if_false]
    exact { h with }

/-- A typedef leaves its reference, also if it is refused. -/
theorem addTypedef (space name target : String) :
    (s.addTypedef space name target).2.Recordable := by
  have hr := h.addReference target
  generalize ht : (⟨⟨s.nextId + 1⟩, name, space, ⟨s.nextId⟩⟩ : Typedef) = t
  by_cases hname : s.typedefIndex.contains t.qualifiedName = true
  · simp only [Store.addTypedef, Store.fresh, Store.addReference, ht, hname, if_true]
    exact { hr with }
  · simp only [Store.addTypedef, Store.fresh, Store.addReference, ht, hname, Bool.false_eq_true,
      if_false]
    exact { hr with }

theorem committed (hs : s.Sound) : s.committed.Recordable where
  names := by
    rw [hs.values_types_committed, List.forall_mem_map]
    exact h.names
  signatures := by
    rw [hs.values_members_committed, List.forall_mem_map]
    exact h.signatures
  references := by
    have hcreated : ∀ e ∈ s.created.entries, e.2.Clear := by
      rw [hs.entries_created, List.forall_mem_append, List.forall_mem_map]
      exact ⟨fun e he => h.references _ (List.mem_map_of_mem he), h.staged⟩
    have hwritten : ∀ e ∈ s.committed.references.entries, e.2.Clear := by
      refine Table.forall_mem_writeAll (Q := Reference.Clear)
        (hs.keys_created ▸ hs.created_nodup) _ hcreated fun w _ a b _ hb => ?_
      simp only [changeReference, Option.ite_none_right_eq_some] at hb
      obtain ⟨hneeds, hb⟩ := hb
      obtain rfl := Option.some.inj hb
      exact Reference.clear_apply (a.needsResolution_iff.1 hneeds) _
    exact List.forall_mem_map.2 hwritten
  staged _ hr := by cases hr

theorem flush (hs : s.Sound) : s.flush.value.2.Recordable := by
  by_cases ha : s.Admitted
  · rw [value_flush_of_admitted ha]
    exact h.committed hs
  · obtain ⟨e, he⟩ := value_flush_of_not_admitted ha
    rw [he]
    exact h.discard

end Recordable

theorem Recordable.sharing (as : List TemplateArgument) (h : Sharing) (hs : h.store.Recordable) :
    (h.run as).1.store.Recordable := by
  induction as generalizing h with
  | nil => exact hs
  | cons a as ih =>
    refine ih (h.step a).1 ?_
    rcases store_step h a with hstep | ⟨r, hr, hstep⟩
    · exact hstep ▸ hs
    · exact hstep ▸ hs.stageReference hr

theorem Recordable.planResolution (h : s.Recordable) : s.planResolution.store.Recordable := by
  have hshared := Recordable.sharing s.unresolvedArguments { store := s } h
  rw [Store.planResolution]
  generalize Sharing.run { store := s } s.unresolvedArguments = shared at hshared
  have hresolutions : ∀ ws, (shared.1.store.stageResolutions ws).Recordable :=
    fun _ => hshared.stage rfl
  have hbases : ∀ ws us, ((shared.1.store.stageResolutions ws).stageBases us).Recordable :=
    fun ws _ => (hresolutions ws).stage rfl
  exact (hbases _ _).stage rfl

theorem Recordable.stageLayouts (h : s.Recordable) (items : List LayoutItem) :
    (s.stageLayouts items).Recordable := by
  have hoffsets : ∀ ws, (s.stageOffsets ws).Recordable := fun _ => h.stage rfl
  exact (hoffsets _).stage rfl

/-- Recordable operations keep what documents can carry. -/
theorem Recordable.perform (h : s.Recordable) (hs : s.Sound) {o : Operation}
    (ho : o.Recordable) : (s.perform o).Recordable := by
  cases o with
  | addType d => exact h.addType d
  | addMember owner d => exact h.addMember owner ho
  | addBase owner typeString => exact h.addBase owner typeString
  | addArgument owner typeString => exact h.addArgument owner typeString
  | addTypedef space name target => exact h.addTypedef space name target
  | stageReference r => exact h.stageReference ho
  | stageResolutions ws => exact h.stage rfl
  | stageLinks ws => exact h.stage rfl
  | stageBases ws => exact h.stage rfl
  | stageOffsets ws => exact h.stage rfl
  | stageSizes ws => exact h.stage rfl
  | flush => exact h.flush hs
  | discard => exact h.discard
  | resolve sampleLimit =>
    rw [Store.perform, store_runResolution]
    exact h.planResolution.flush hs.planResolution
  | layOut keepLayouts =>
    rw [Store.perform, store_runLayout]
    exact (h.stageLayouts _).flush (hs.stageLayouts _)

/-- **Documents can carry all stores that ingesting and importing lead to.** -/
theorem Ingested.recordable (h : s.Ingested) : s.Recordable := by
  have hkeeps := h.leadsBy.keeps (P := fun t => t.Sound ∧ t.Recordable)
    (fun _ o ho ht => ⟨ht.1.perform o, ht.2.perform ht.1 ho⟩) ⟨sound_empty, recordable_empty⟩
  exact hkeeps.2

/-! ## Exported documents -/

namespace Recordable

variable (h : s.Recordable)

include h

/-- A record has the name of its type. -/
theorem qualifiedName_typeRecord {n : DeclaredType} (hn : n ∈ s.types.values) :
    (s.typeRecord n).qualifiedName = n.qualifiedName := (h.names n hn).symm

theorem names_ofStore (hs : s.Sound) : (Document.ofStore s).names = s.byName.keys := by
  rw [Document.names, Document.ofStore, List.map_map, Table.keys, hs.byName, List.map_map,
    Table.values, List.map_map]
  refine List.map_congr_left fun e he => ?_
  exact h.qualifiedName_typeRecord (List.mem_map_of_mem he)

omit h in
theorem typedefNames_ofStore (hs : s.Sound) :
    (Document.ofStore s).typedefs.map TypedefRecord.qualifiedName = s.typedefIndex.keys := by
  rw [Document.ofStore, List.map_map, Table.keys, hs.typedefIndex, List.map_map, Table.values,
    List.map_map]
  rfl

/-- **No name occurs twice in the document of a store.** -/
theorem distinct_ofStore (hs : s.Sound) : (Document.ofStore s).Distinct where
  types := by
    have hnames : (Document.ofStore s).names.Nodup := h.names_ofStore hs ▸ hs.typeNames
    exact hnames
  typedefs := typedefNames_ofStore hs ▸ hs.typedefNames

/-- A document knows the names that it says of resolutions. -/
theorem known?_nameOf (id : Option TypeId) :
    (Document.ofStore s).known? (s.nameOf id) = s.nameOf id := by
  cases hname : s.nameOf id with
  | none => rfl
  | some name =>
    obtain ⟨n, hn, rfl⟩ := Option.map_eq_some_iff.1 hname
    obtain ⟨t, -, ht⟩ := Option.bind_eq_some_iff.1 hn
    have hvalue := Table.mem_values_of_find? ht
    have hmem : n.qualifiedName ∈ (Document.ofStore s).names := by
      rw [← h.qualifiedName_typeRecord hvalue]
      exact List.mem_map_of_mem (List.mem_map_of_mem hvalue)
    rw [Document.known?, Option.filter_some_pos (by simpa using hmem)]

/-- A link says no resolution twice, so that all of it is kept. -/
theorem keptLink_linkRecord (typeString : String) (id : Option ReferenceId) :
    (Document.ofStore s).keptLink (s.linkRecord typeString id) = s.linkRecord typeString id := by
  rw [linkRecord]
  cases hr : id.bind s.references.find? with
  | none => rfl
  | some r =>
    obtain ⟨rid, -, hfind⟩ := Option.bind_eq_some_iff.1 hr
    have hmark : (r.isPrimitive && (s.nameOf r.target).isNone) = r.isPrimitive := by
      rcases h.references r (Table.mem_values_of_find? hfind) with htarget | hclear
      · rw [htarget]
        exact Bool.and_true _
      · rw [hclear]
        exact Bool.false_and _
    simp only [Document.keptLink, h.known?_nameOf, hmark]

theorem keptBase_baseRecord (b : BaseEdge) :
    (Document.ofStore s).keptBase (s.baseRecord b) = s.baseRecord b := by
  simp only [Document.keptBase, baseRecord, h.known?_nameOf]

theorem keptMember_memberRecord {m : Member} (hm : m ∈ s.members.values) (place : Nat) :
    (Document.ofStore s).keptMember (s.memberRecord m) place = s.memberRecord m := by
  have hlink := h.keptLink_linkRecord m.typeString m.reference
  have hrecord : (s.memberRecord m).link = s.linkRecord m.typeString m.reference := by
    rw [linkRecord]
    unfold MemberRecord.link memberRecord linkRecord
    cases m.reference.bind s.references.find? <;> rfl
  have hsignature : (if m.isFunctionPointer then m.signature else none) = m.signature := by
    by_cases hpointer : m.isFunctionPointer = true
    · rw [if_pos hpointer]
    · have hnone : ¬m.signature.isSome = true := fun hsome => hpointer (h.signatures m hm hsome)
      rw [if_neg hpointer, Option.not_isSome_iff_eq_none.1 hnone]
  rw [Document.keptMember, hrecord, hlink]
  unfold memberRecord
  simp only [Option.getD_some]
  rw [hsignature]

theorem keptTypedef_typedefRecord (t : Typedef) :
    (Document.ofStore s).keptTypedef (s.typedefRecord t) = s.typedefRecord t := by
  have hlink := h.keptLink_linkRecord (s.typedefRecord t).target (some t.target)
  have hrecord : (s.typedefRecord t).link =
      s.linkRecord (s.typedefRecord t).target (some t.target) := by
    unfold TypedefRecord.link typedefRecord linkRecord
    cases (some t.target).bind s.references.find? <;> rfl
  rw [Document.keptTypedef, hrecord, hlink]
  rfl

end Recordable

/-- The members of a type are in the order of their records. -/
theorem sorted_memberRecord (id : TypeId) :
    ((s.membersOf id).map s.memberRecord).mergeSort
      (fun a b => decide ((a.order.getD 0).toNat ≤ (b.order.getD 0).toNat)) =
        (s.membersOf id).map s.memberRecord := by
  have hsorted : (s.membersOf id).Pairwise fun a b =>
      pairLe (a.order.toNat, a.id.val) (b.order.toNat, b.id.val) = true :=
    List.pairwise_mergeSort (fun (a b c : Member) => pairLe_trans (a.order.toNat, a.id.val)
      (b.order.toNat, b.id.val) (c.order.toNat, c.id.val)) (fun _ _ => pairLe_total _ _) _
  refine List.mergeSort_of_pairwise (List.pairwise_map.2 (hsorted.imp fun hab => ?_))
  rw [pairLe_iff] at hab
  refine decide_eq_true ?_
  simp only [memberRecord, Option.getD_some]
  omega

end Store

namespace Document

variable (d : Document)

/-- A document with bases and template arguments by positions that are words. -/
def inWordOrder : Document :=
  { d with types := d.types.map fun r =>
      { r with
        bases := DeclGraph.inWordOrder r.bases
        arguments := DeclGraph.inWordOrder r.arguments } }

/-- Words are enough to count the bases and template arguments of each type. -/
def CountedInWords : Prop :=
  ∀ r ∈ d.types, r.bases.length ≤ UInt32.size ∧ r.arguments.length ≤ UInt32.size

variable {d}

theorem CountedInWords.inWordOrder_eq (h : d.CountedInWords) : d.inWordOrder = d := by
  have htypes : ∀ r ∈ d.types, ({ r with
      bases := DeclGraph.inWordOrder r.bases
      arguments := DeclGraph.inWordOrder r.arguments } : TypeRecord) = r := by
    intro r hr
    obtain ⟨hbases, harguments⟩ := h r hr
    rw [inWordOrder_of_length_le hbases, inWordOrder_of_length_le harguments]
  rw [inWordOrder, List.map_congr_left htypes, List.map_id']

end Document

namespace Store

variable {s : Store}

/-- Words are enough for a store with no more bases and template arguments altogether. -/
theorem Sound.countedInWords (hs : s.Sound) (hbases : s.bases.values.length ≤ UInt32.size)
    (harguments : s.arguments.values.length ≤ UInt32.size) :
    (Document.ofStore s).CountedInWords := by
  refine List.forall_mem_map.2 fun n _ => ⟨?_, ?_⟩
  · have hlength : (s.basesOf n.id).length ≤ s.bases.values.length := by
      rw [basesOf, List.length_mergeSort, hs.basesByType,
        Table.filterMap_find?_filter hs.bases_nodup (·.owner = n.id)]
      exact List.length_filter_le _ _
    rw [typeRecord, List.length_map]
    exact Nat.le_trans hlength hbases
  · have hlength : (s.argumentsOf n.id).length ≤ s.arguments.values.length := by
      rw [argumentsOf, List.length_mergeSort, hs.argumentsByType,
        Table.filterMap_find?_filter hs.arguments_nodup (·.owner = n.id)]
      exact List.length_filter_le _ _
    rw [typeRecord, List.length_map]
    exact Nat.le_trans hlength harguments

namespace Recordable

variable (h : s.Recordable)

include h

/-- The record of a type keeps all that its type declares. -/
theorem keptType_typeRecord (hs : s.Sound) (n : DeclaredType) :
    (Document.ofStore s).keptType (s.typeRecord n) =
      { s.typeRecord n with
        bases := inWordOrder (s.typeRecord n).bases
        arguments := inWordOrder (s.typeRecord n).arguments } := by
  have hbases : ((s.basesOf n.id).map s.baseRecord).map (Document.ofStore s).keptBase =
      (s.basesOf n.id).map s.baseRecord := by
    rw [List.map_map]
    exact List.map_congr_left fun b _ => h.keptBase_baseRecord b
  have harguments : ((s.argumentsOf n.id).map s.argumentRecord).map (Document.ofStore s).keptLink =
      (s.argumentsOf n.id).map s.argumentRecord := by
    rw [List.map_map]
    exact List.map_congr_left fun a _ => h.keptLink_linkRecord a.typeString a.reference
  have hmembers : ((s.membersOf n.id).map s.memberRecord).zipIdx.map
      (fun p => (Document.ofStore s).keptMember p.1 p.2) =
        (s.membersOf n.id).map s.memberRecord := by
    have hkept : ∀ p ∈ ((s.membersOf n.id).map s.memberRecord).zipIdx,
        (Document.ofStore s).keptMember p.1 p.2 = p.1 := by
      intro p hp
      obtain ⟨m, hm, hrecord⟩ := List.mem_map.1 (List.fst_mem_of_mem_zipIdx hp)
      have hvalue := Table.mem_values_of_find? (hs.mem_membersOf_iff.1 hm).1
      rw [← hrecord]
      exact h.keptMember_memberRecord hvalue p.2
    rw [List.map_congr_left hkept, List.zipIdx_map_fst]
  simp only [Document.keptType, typeRecord, hbases, harguments, hmembers, sorted_memberRecord]

/-- **An exported document keeps all of itself**, with bases and template arguments by words. -/
theorem kept_ofStore (hs : s.Sound) :
    (Document.ofStore s).kept = (Document.ofStore s).inWordOrder := by
  have htypes : (Document.ofStore s).types.map (Document.ofStore s).keptType =
      (Document.ofStore s).inWordOrder.types := by
    rw [Document.inWordOrder, Document.ofStore, List.map_map, List.map_map]
    exact List.map_congr_left fun n _ => h.keptType_typeRecord hs n
  have htypedefs : (Document.ofStore s).typedefs.map (Document.ofStore s).keptTypedef =
      (Document.ofStore s).typedefs := by
    rw [Document.ofStore, List.map_map]
    exact List.map_congr_left fun t _ => h.keptTypedef_typedefRecord t
  rw [Document.kept, htypes, htypedefs]
  rfl

end Recordable

/-- Of other documents less is kept, as the primitive mark beside the name of a type is not. -/
example : (⟨[{ name := "S", kind := .struct
               arguments := [{ typeString := "S", resolved := some "S", primitive := true }] }],
    []⟩ : Document).kept.types.map (·.arguments) =
      [[{ typeString := "S", resolved := some "S" }]] := by decide +kernel

/-- **The round trip**: the document of a store can be imported, and what has been imported has the
same document, record for record. Positions of bases and template arguments are words; types with
more of them than words count have them in the order of these words. -/
theorem export_import (h : s.Ingested) :
    ∃ s', (Document.ofStore s).toStore.value = .ok s' ∧
      Document.ofStore s' = (Document.ofStore s).inWordOrder ∧
      ((Document.ofStore s).CountedInWords → Document.ofStore s' = Document.ofStore s) := by
  obtain ⟨s', himport, hexport⟩ := (h.recordable.distinct_ofStore h.sound).exists_toStore
  rw [h.recordable.kept_ofStore h.sound] at hexport
  exact ⟨s', himport, hexport, fun hcounted => hexport.trans hcounted.inWordOrder_eq⟩

/-- Operations after which the members of a type are out of order, a template argument has a
reference that was staged for it, and a size is still staged. -/
def chartedBy : List Operation :=
  [.addType { name := "Foo", kind := .struct },
    .addMember ⟨1⟩ { name := "x", typeString := "int", order := some 7 },
    .addMember ⟨1⟩ { name := "f", typeString := "void (*)(int)", order := some 2,
                     isFunctionPointer := true, signature := some 5 },
    .addType { name := "S", space := "ns", kind := .class_ }, .addBase ⟨6⟩ "Foo",
    .addArgument ⟨6⟩ "int", .addArgument ⟨6⟩ "A", Operation.addTypedef "" "A" "Foo",
    .stageReference { Reference.ofTypeString ⟨0⟩ "A" with target := some ⟨1⟩ },
    .stageLinks [(⟨9⟩, ⟨12⟩)], .stageBases [(⟨7⟩, ⟨1⟩)],
    .stageResolutions [(⟨2⟩, .primitive)], .stageOffsets [(⟨3⟩, 8)], .stageSizes [(⟨1⟩, 16)],
    .flush, .stageSizes [(⟨99⟩, 1)], .flush, .resolve 25, .stageSizes [(⟨6⟩, 24)]]

def charted : Store := chartedBy.foldl perform empty

theorem ingested_charted : charted.Ingested := by
  have hrecordable : ∀ o ∈ chartedBy, o.Recordable := by
    simp [chartedBy, Operation.Recordable, Reference.Clear, Reference.ofTypeString]
  exact ⟨empty, .inl rfl, leadsBy_foldl _ hrecordable _⟩

theorem export_import_charted : charted.Ingested ∧ charted.pending = 1 ∧
    charted.members.values.map charted.memberRecord =
      [{ name := "x", typeString := "int", order := some 7, offset := some 8, primitive := true },
        { name := "f", typeString := "void (*)(int)", order := some 2, isFunctionPointer := true,
          signature := some 5, primitive := true }] ∧
    charted.bases.values.map charted.baseRecord =
      [{ typeString := "Foo", resolved := some "Foo" }] ∧
    charted.arguments.values.map charted.argumentRecord =
      [{ typeString := "int", primitive := true }, { typeString := "A", resolved := some "Foo" }] ∧
    (Document.ofStore charted).typedefs =
      [{ name := "A", target := "Foo", resolved := some "Foo" }] ∧
    ∃ s', (Document.ofStore charted).toStore.value = .ok s' ∧
      Document.ofStore s' = Document.ofStore charted := by
  obtain ⟨s', himport, -, hexport⟩ := export_import ingested_charted
  have hcounted : (Document.ofStore charted).CountedInWords :=
    ingested_charted.sound.countedInWords (by decide +kernel) (by decide +kernel)
  refine ⟨ingested_charted, by decide +kernel, by decide +kernel, by decide +kernel,
    by decide +kernel, by decide +kernel, s', himport, hexport hcounted⟩

end Store

end DeclGraph
