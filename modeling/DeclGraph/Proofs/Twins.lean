import DeclGraph.Proofs.Correspondence
import DeclGraph.Proofs.Legible

/-!
# Stores with one document

Two stores have the same document if they hold the same declarations, resolved to types of the same
names, under whatever identities. Layout finds in one of them what it finds in the other.

* `Store.Readable`: stores whose documents say all that layout reads.
* `Store.Twin`: types of two stores with one name.
* `Store.SameDocument.namesLike`, `Store.SameDocument.typesLike`: names stand for twins, and twins
  are declared alike.
* `Store.SameDocument.layoutOf?`: **the layouts of twins have the same sizes and offsets.**
-/

namespace DeclGraph

theorem Reference.typeString_of_declared {r : Reference} {id : ReferenceId} {typeString : String}
    (h : r.declared = .ofTypeString id typeString) : r.typeString = typeString :=
  (congrArg Reference.typeString h : r.declared.typeString = _)

/-- References of one type string that point at types that correspond say the same. -/
theorem Reference.like_of_declared {ids : TypeId → TypeId → Prop} {r r' : Reference}
    {id id' : ReferenceId} {typeString : String} (hr : r.declared = .ofTypeString id typeString)
    (hr' : r'.declared = .ofTypeString id' typeString)
    (htarget : Option.Rel ids r.target r'.target) : r.Like ids r' where
  typeString := (typeString_of_declared hr').trans (typeString_of_declared hr).symm
  isIndirect := (congrArg Reference.isIndirect hr').trans (congrArg Reference.isIndirect hr).symm
  elementCount :=
    (congrArg Reference.elementCount hr').trans (congrArg Reference.elementCount hr).symm
  target := htarget

namespace Store

/-- Stores whose documents say all that layout reads. -/
structure Readable (s : Store) : Prop where
  sound : s.Sound
  recordable : s.Recordable
  legible : s.Legible

theorem Ingested.readable {s : Store} (h : s.Ingested) : s.Readable :=
  ⟨h.sound, h.recordable, Reachable.legible h.leadsBy.leads⟩

/-- Types of two stores with one name. -/
def Twin (s s' : Store) (i i' : TypeId) : Prop :=
  ∃ n n', s.types.find? i = some n ∧ s'.types.find? i' = some n' ∧
    n'.qualifiedName = n.qualifiedName

variable {s s' : Store}

/-- What is resolved to types of the same names is resolved to twins. -/
theorem rel_twin_of_nameOf {t t' : Option TypeId} (ht : ∀ i, t = some i → i ∈ s.types.keys)
    (ht' : ∀ i, t' = some i → i ∈ s'.types.keys) (hname : s'.nameOf t' = s.nameOf t) :
    Option.Rel (s.Twin s') t t' := by
  have hnamed : ∀ {s : Store} {i : TypeId}, i ∈ s.types.keys →
      ∃ n, s.types.find? i = some n ∧ s.nameOf (some i) = some n.qualifiedName := by
    intro s i hi
    obtain ⟨n, hn⟩ := Table.exists_find? hi
    exact ⟨n, hn, congrArg (Option.map _) hn⟩
  cases t with
  | none =>
    cases t' with
    | none => exact .none
    | some i' =>
      obtain ⟨n', -, hn'⟩ := hnamed (ht' i' rfl)
      cases hn'.symm.trans hname
  | some i =>
    obtain ⟨n, hn, hni⟩ := hnamed (ht i rfl)
    cases t' with
    | none => cases hname.trans hni
    | some i' =>
      obtain ⟨n', hn', hni'⟩ := hnamed (ht' i' rfl)
      rw [hni, hni'] at hname
      exact .some ⟨n, n', hn, hn', Option.some.inj hname⟩

/-- Two readable stores with the same document. -/
structure SameDocument (s s' : Store) : Prop where
  left : s.Readable
  right : s'.Readable
  document : Document.ofStore s' = Document.ofStore s

namespace SameDocument

variable (h : s.SameDocument s')

include h

/-- Types of one name have one record. -/
theorem typeRecord_eq {n n' : DeclaredType} (hn : n ∈ s.types.values) (hn' : n' ∈ s'.types.values)
    (hname : n'.qualifiedName = n.qualifiedName) : s'.typeRecord n' = s.typeRecord n := by
  have hdistinct := (h.left.recordable.distinct_ofStore h.left.sound).types
  have hmem : s'.typeRecord n' ∈ (Document.ofStore s).types :=
    h.document ▸ List.mem_map_of_mem (f := s'.typeRecord) hn'
  refine List.inj_on_of_nodup_map hdistinct hmem (List.mem_map_of_mem hn) ?_
  rw [h.left.recordable.qualifiedName_typeRecord hn,
    h.right.recordable.qualifiedName_typeRecord hn', hname]

/-- Types with one record are twins. -/
theorem twin_of_typeRecord {n n' : DeclaredType} (hn : n ∈ s.types.values)
    (hn' : n' ∈ s'.types.values) (hrecord : s'.typeRecord n' = s.typeRecord n) :
    s.Twin s' n.id n'.id := by
  refine ⟨n, n', Table.find?_of_mem_values h.left.sound.types_nodup h.left.sound.typeId hn,
    Table.find?_of_mem_values h.right.sound.types_nodup h.right.sound.typeId hn', ?_⟩
  rw [← h.left.recordable.qualifiedName_typeRecord hn,
    ← h.right.recordable.qualifiedName_typeRecord hn', hrecord]

/-- The types of both stores correspond in order. -/
theorem types : List.Forall₂
    (fun n n' => s.types.find? n.id = some n ∧ s'.types.find? n'.id = some n' ∧
      s'.typeRecord n' = s.typeRecord n) s.types.values s'.types.values := by
  refine forall₂_of_map_eq (congrArg Document.types h.document) fun n hn n' hn' hrecord => ?_
  exact ⟨Table.find?_of_mem_values h.left.sound.types_nodup h.left.sound.typeId hn,
    Table.find?_of_mem_values h.right.sound.types_nodup h.right.sound.typeId hn', hrecord⟩

/-- A type has one twin. -/
theorem twin_iff {i i' j j' : TypeId} (hi : s.Twin s' i i') (hj : s.Twin s' j j') :
    i = j ↔ i' = j' := by
  obtain ⟨n, n', hn, hn', hname⟩ := hi
  obtain ⟨m, m', hm, hm', hname'⟩ := hj
  constructor
  · rintro rfl
    obtain rfl := Option.some.inj (hn.symm.trans hm)
    exact h.right.sound.distinct.name hn' hm' (hname.trans hname'.symm)
  · rintro rfl
    obtain rfl := Option.some.inj (hn'.symm.trans hm')
    exact h.left.sound.distinct.name hn hm (hname.symm.trans hname')

/-! ## What names stand for -/

theorem byName (name : String) :
    Option.Rel (s.Twin s') (s.byName.find? name) (s'.byName.find? name) := by
  have hkeys : s'.byName.keys = s.byName.keys := by
    rw [← h.right.recordable.names_ofStore h.right.sound, h.document,
      h.left.recordable.names_ofStore h.left.sound]
  cases hi : s.byName.find? name with
  | none =>
    rw [Table.find?_eq_none_iff, ← hkeys, ← Table.find?_eq_none_iff] at hi
    rw [hi]
    exact .none
  | some i =>
    obtain ⟨i', hi'⟩ := Table.exists_find? (hkeys ▸ Table.mem_keys_of_find? hi)
    obtain ⟨n, hn, rfl⟩ := h.left.sound.byName_iff.1 hi
    obtain ⟨n', hn', hname⟩ := h.right.sound.byName_iff.1 hi'
    rw [hi']
    exact .some ⟨n, n', hn, hn', hname⟩

/-- References with one link record, of one type string, say the same. -/
theorem referencesLike {id id' : ReferenceId} {r r' : Reference} {typeString : String}
    (hr : s.references.find? id = some r) (hr' : s'.references.find? id' = some r')
    (hdeclared : r.declared = .ofTypeString id typeString)
    (hdeclared' : r'.declared = .ofTypeString id' typeString)
    (hresolved : s'.nameOf r'.target = s.nameOf r.target) : r.Like (s.Twin s') r' :=
  Reference.like_of_declared hdeclared hdeclared' (rel_twin_of_nameOf
    (h.left.sound.referenceTarget _ (Table.mem_entries_of_find? hr))
    (h.right.sound.referenceTarget _ (Table.mem_entries_of_find? hr')) hresolved)

/-- Typedefs of one name have targets that say the same. -/
theorem typedefsLike {t t' : Typedef} (ht : s.typedefIndex.find? t.qualifiedName = some t)
    (ht' : s'.typedefIndex.find? t'.qualifiedName = some t')
    (hname : t'.qualifiedName = t.qualifiedName) :
    s.layoutInput.TypedefsLike s'.layoutInput (s.Twin s') t t' := by
  have hvalue : ∀ {s : Store}, s.Sound → ∀ {t : Typedef},
      s.typedefIndex.find? t.qualifiedName = some t → t ∈ s.typedefs.values := by
    intro s hs t ht
    obtain ⟨id, hfind, -⟩ := hs.typedefIndex_iff.1 ht
    exact Table.mem_values_of_find? hfind
  have hmem := hvalue h.left.sound ht
  have hmem' := hvalue h.right.sound ht'
  have hrecord : s'.typedefRecord t' = s.typedefRecord t := by
    have hdistinct := (h.left.recordable.distinct_ofStore h.left.sound).typedefs
    have hrecorded : s'.typedefRecord t' ∈ (Document.ofStore s).typedefs :=
      h.document ▸ List.mem_map_of_mem (f := s'.typedefRecord) hmem'
    exact List.inj_on_of_nodup_map hdistinct hrecorded (List.mem_map_of_mem hmem) hname
  obtain ⟨typeString, r, hr, hdeclared⟩ := h.left.legible.typedefs t hmem
  obtain ⟨typeString', r', hr', hdeclared'⟩ := h.right.legible.typedefs t' hmem'
  have htarget : r'.typeString = r.typeString := by
    have hsame := congrArg TypedefRecord.target hrecord
    simp only [typedefRecord, hr, hr', Option.map_some, Option.getD_some] at hsame
    exact hsame
  have hresolved : s'.nameOf r'.target = s.nameOf r.target := by
    have hsame := congrArg TypedefRecord.resolved hrecord
    simp only [typedefRecord, linkRecord, hr, hr', Option.bind_some] at hsame
    exact hsame
  have hspelled : typeString' = typeString := by
    rw [← Reference.typeString_of_declared hdeclared', htarget,
      Reference.typeString_of_declared hdeclared]
  refine ⟨congrArg TypedefRecord.space hrecord, ?_⟩
  rw [h.left.sound.layout_typedefTarget ht, h.right.sound.layout_typedefTarget ht', hr, hr']
  exact .some (h.referencesLike hr hr' hdeclared (hspelled ▸ hdeclared') hresolved)

/-- **Names stand for twins**, and for typedefs that say the same. -/
theorem namesLike : s.layoutInput.NamesLike s'.layoutInput (s.Twin s') where
  types name := by
    rw [h.left.sound.layout_byName, h.right.sound.layout_byName]
    exact h.byName name
  typedefs name := by
    rw [h.left.sound.layout_typedefs, h.right.sound.layout_typedefs]
    have hkeys : s'.typedefIndex.keys = s.typedefIndex.keys := by
      rw [← Recordable.typedefNames_ofStore h.right.sound, h.document,
        Recordable.typedefNames_ofStore h.left.sound]
    cases ht : s.typedefIndex.find? name with
    | none =>
      rw [Table.find?_eq_none_iff, ← hkeys, ← Table.find?_eq_none_iff] at ht
      rw [ht]
      exact .none
    | some t =>
      obtain ⟨t', ht'⟩ := Table.exists_find? (hkeys ▸ Table.mem_keys_of_find? ht)
      obtain ⟨-, -, rfl⟩ := h.left.sound.typedefIndex_iff.1 ht
      obtain ⟨-, -, hname⟩ := h.right.sound.typedefIndex_iff.1 ht'
      rw [ht']
      rw [← hname] at ht'
      exact .some (h.typedefsLike ht ht' hname)

/-! ## Twins are declared alike -/

theorem basesLike {b b' : BaseEdge} (hb : b ∈ s.bases.values) (hb' : b' ∈ s'.bases.values)
    (hrecord : s'.baseRecord b' = s.baseRecord b) : BaseEdge.Like (s.Twin s') b b' := by
  obtain ⟨e, he, rfl⟩ := List.mem_map.1 hb
  obtain ⟨e', he', rfl⟩ := List.mem_map.1 hb'
  exact ⟨congrArg LinkRecord.typeString hrecord, rel_twin_of_nameOf (h.left.sound.baseTarget e he)
    (h.right.sound.baseTarget e' he') (congrArg LinkRecord.resolved hrecord)⟩

section Aggregates

variable {n n' : DeclaredType} (hn : s.types.find? n.id = some n)
  (hn' : s'.types.find? n'.id = some n') (hrecord : s'.typeRecord n' = s.typeRecord n)
  (hagg : n.isAggregate = true) (hagg' : n'.isAggregate = true)

include hn hn' hagg hagg'

theorem membersLike {m m' : Member} (hm : m ∈ s.membersOf n.id) (hm' : m' ∈ s'.membersOf n'.id)
    (hsame : s'.memberRecord m' = s.memberRecord m) (scope : String) :
    s.layoutInput.MembersLike s'.layoutInput (s.Twin s') Member.SameWidth scope m m' := by
  have hfound := Table.mem_values_of_find? (h.left.sound.mem_membersOf_iff.1 hm).1
  have hfound' := Table.mem_values_of_find? (h.right.sound.mem_membersOf_iff.1 hm').1
  obtain ⟨id, hid, r, hr, hdeclared⟩ := h.left.legible.members m hfound
  obtain ⟨id', hid', r', hr', hdeclared'⟩ := h.right.legible.members m' hfound'
  have htypeString : m'.typeString = m.typeString := congrArg MemberRecord.typeString hsame
  have hresolved : s'.nameOf r'.target = s.nameOf r.target := by
    have hlinks := congrArg MemberRecord.resolved hsame
    simp only [memberRecord, linkRecord, hid, hid', hr, hr', Option.bind_some] at hlinks
    exact hlinks
  have hreference : s.layoutInput.referenceOf m = r := by
    rw [LayoutInput.referenceOf, hid, Option.bind_some,
      h.left.sound.layout_memberReference hn hagg hm hid, hr, Option.getD_some]
  have hreference' : s'.layoutInput.referenceOf m' = r' := by
    rw [LayoutInput.referenceOf, hid', Option.bind_some,
      h.right.sound.layout_memberReference hn' hagg' hm' hid', hr', Option.getD_some]
  refine ⟨congrArg MemberRecord.bitWidth hsame, congrArg MemberRecord.alignment hsame,
    h.namesLike.memberExtent (congrArg MemberRecord.isFunctionPointer hsame) ?_ scope⟩
  rw [hreference, hreference']
  exact h.referencesLike hr hr' hdeclared (htypeString ▸ hdeclared') hresolved

include hrecord

/-- Aggregates with one record have bases and members that correspond. -/
theorem partsLike :
    List.Forall₂ (BaseEdge.Like (s.Twin s')) (s.layoutInput.basesOf n.id)
      (s'.layoutInput.basesOf n'.id) ∧
    List.Forall₂
      (s.layoutInput.MembersLike s'.layoutInput (s.Twin s') Member.SameWidth n.qualifiedName)
      (s.layoutInput.membersOf n.id) (s'.layoutInput.membersOf n'.id) := by
  have hbase : ∀ {s : Store} {id : TypeId} {b : BaseEdge}, b ∈ s.basesOf id →
      b ∈ s.bases.values := by
    intro s id b hb
    rw [basesOf, List.mem_mergeSort, List.mem_filterMap] at hb
    obtain ⟨_, -, hfind⟩ := hb
    exact Table.mem_values_of_find? hfind
  rw [h.left.sound.layout_basesOf hn hagg, h.right.sound.layout_basesOf hn' hagg',
    h.left.sound.layout_membersOf hn hagg, h.right.sound.layout_membersOf hn' hagg']
  exact ⟨forall₂_of_map_eq (congrArg TypeRecord.bases hrecord) fun b hb b' hb' hsame =>
      h.basesLike (hbase hb) (hbase hb') hsame,
    forall₂_of_map_eq (congrArg TypeRecord.members hrecord) fun m hm m' hm' hsame =>
      h.membersLike hn hn' hagg hagg' hm hm' hsame _⟩

end Aggregates

/-- **Twins are declared alike.** -/
theorem typesLike {i i' : TypeId} (hi : s.Twin s' i i') :
    Option.Rel (s.layoutInput.TypesLike s'.layoutInput (s.Twin s') Member.SameWidth)
      (s.layoutInput.types.find? i) (s'.layoutInput.types.find? i') := by
  obtain ⟨n, n', hn, hn', hname⟩ := hi
  have hrecord := h.typeRecord_eq (Table.mem_values_of_find? hn) (Table.mem_values_of_find? hn')
    hname
  obtain rfl := h.left.sound.distinct.id hn
  obtain rfl := h.right.sound.distinct.id hn'
  have hkind : n'.kind = n.kind := congrArg TypeRecord.kind hrecord
  have hparts : List.Forall₂ (BaseEdge.Like (s.Twin s')) (s.layoutInput.basesOf n.id)
        (s'.layoutInput.basesOf n'.id) ∧
      List.Forall₂
        (s.layoutInput.MembersLike s'.layoutInput (s.Twin s') Member.SameWidth n.qualifiedName)
        (s.layoutInput.membersOf n.id) (s'.layoutInput.membersOf n'.id) := by
    have hsame : n'.isAggregate = n.isAggregate := congrArg Kind.isAggregate hkind
    cases hagg : n.isAggregate with
    | true => exact h.partsLike hn hn' hrecord hagg (hsame.trans hagg)
    | false =>
      obtain ⟨hbases, hmembers⟩ := h.left.sound.layout_parts_eq_nil hn hagg
      obtain ⟨hbases', hmembers'⟩ := h.right.sound.layout_parts_eq_nil hn' (hsame.trans hagg)
      rw [hbases, hbases', hmembers, hmembers']
      exact ⟨.nil, .nil⟩
  have hlike : s.layoutInput.TypesLike s'.layoutInput (s.Twin s') Member.SameWidth n n' :=
    ⟨⟨n, n', hn, hn', hname⟩, congrArg TypeRecord.name hrecord, hkind,
      congrArg TypeRecord.alignment hrecord, hname, hparts.1, hparts.2⟩
  change Option.Rel _ (s.types.find? n.id) (s'.types.find? n'.id)
  rw [hn, hn']
  exact .some hlike

/-! ## Layouts -/

/-- Measuring one store goes side by side with measuring the other. -/
def coupling (h : s.SameDocument s') : Coupling s.layoutInput s'.layoutInput .words .words :=
  LayoutInput.recoupling s.layoutInput s'.layoutInput .words (s.Twin s')
    (by
      have hlength := h.types.length_eq
      rw [Table.values, List.length_map, Table.values, List.length_map] at hlength
      exact hlength.symm)
    h.twin_iff h.typesLike

theorem aggregates :
    List.Forall₂ (fun n n' => s.Twin s' n.id n'.id) s.aggregates s'.aggregates := by
  have htwins : List.Forall₂
      (fun n n' => s.Twin s' n.id n'.id ∧ n'.isAggregate = n.isAggregate)
      s.types.values s'.types.values := by
    refine h.types.imp fun n n' ⟨hn, hn', hrecord⟩ => ⟨?_, ?_⟩
    · exact h.twin_of_typeRecord (Table.mem_values_of_find? hn) (Table.mem_values_of_find? hn')
        hrecord
    · exact congrArg (fun r : TypeRecord => r.kind.isAggregate) hrecord
  rw [Store.aggregates, Store.aggregates]
  generalize s.types.values = ns, s'.types.values = ns' at htwins
  induction htwins with
  | nil => exact .nil
  | @cons n n' ns ns' hn _ ih =>
    rw [List.filter_cons, List.filter_cons, hn.2]
    split
    · exact .cons hn.1 ih
    · exact ih

/-- **The layouts of twins have the same sizes and offsets.** -/
theorem layoutOf? {i i' : TypeId} (hi : s.Twin s' i i') :
    Option.Rel Layout.Like (s.layoutOf? i) (s'.layoutOf? i') := by
  have hlike : h.coupling.Like s.laidOut s'.laidOut :=
    h.coupling.layItems h.left.sound.distinct (fun _ => trivial) h.aggregates .fresh .fresh
  exact hlike.layouts i i' hi

end SameDocument

end Store

end DeclGraph
