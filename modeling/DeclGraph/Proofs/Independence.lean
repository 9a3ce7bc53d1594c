import DeclGraph.Layout.Pass
import DeclGraph.Proofs.Flush
import DeclGraph.Proofs.Measuring

/-!
# What layout does not read

A layout pass writes sizes of types and offsets of members, and writes none for ignored types. What
it computes depends on neither: the same layouts are found in the same order for all stores that
differ in sizes, offsets and ignored marks only.

* `Veil`: a change of types and members that concerns nothing that layout reads.
* `LayoutInput.metricsWithin_through`: types are measured alike through a veil.
* `LayoutInput.layItems_through`: **aggregates are laid out alike**.
* `Store.layoutInput_through`: what layout reads of a changed store is what it reads of the store,
  changed.
-/

namespace DeclGraph

/-- A change of types and members that concerns nothing that layout reads. -/
structure Veil where
  type : DeclaredType → DeclaredType
  member : Member → Member
  id : ∀ n, (type n).id = n.id
  baseName : ∀ n, (type n).baseName = n.baseName
  kind : ∀ n, (type n).kind = n.kind
  alignment : ∀ n, (type n).alignment = n.alignment
  qualifiedName : ∀ n, (type n).qualifiedName = n.qualifiedName
  memberId : ∀ m, (member m).id = m.id
  memberName : ∀ m, (member m).name = m.name
  order : ∀ m, (member m).order = m.order
  typeString : ∀ m, (member m).typeString = m.typeString
  reference : ∀ m, (member m).reference = m.reference
  bitWidth : ∀ m, (member m).bitWidth = m.bitWidth
  memberAlignment : ∀ m, (member m).alignment = m.alignment
  isFunctionPointer : ∀ m, (member m).isFunctionPointer = m.isFunctionPointer

attribute [simp] Veil.id Veil.baseName Veil.kind Veil.alignment Veil.qualifiedName Veil.memberId
  Veil.memberName Veil.order Veil.typeString Veil.reference Veil.bitWidth Veil.memberAlignment
  Veil.isFunctionPointer

namespace Veil

/-- Without sizes and offsets. -/
def unwritten : Veil where
  type := DeclaredType.declared
  member := Member.declared
  id _ := rfl
  baseName _ := rfl
  kind _ := rfl
  alignment _ := rfl
  qualifiedName _ := rfl
  memberId _ := rfl
  memberName _ := rfl
  order _ := rfl
  typeString _ := rfl
  reference _ := rfl
  bitWidth _ := rfl
  memberAlignment _ := rfl
  isFunctionPointer _ := rfl

/-- Without ignored marks. -/
def unignored : Veil where
  type n := { n with isIgnored := false }
  member m := m
  id _ := rfl
  baseName _ := rfl
  kind _ := rfl
  alignment _ := rfl
  qualifiedName _ := rfl
  memberId _ := rfl
  memberName _ := rfl
  order _ := rfl
  typeString _ := rfl
  reference _ := rfl
  bitWidth _ := rfl
  memberAlignment _ := rfl
  isFunctionPointer _ := rfl

variable (v : Veil)

@[simp] theorem isAggregate (n : DeclaredType) : (v.type n).isAggregate = n.isAggregate := by
  rw [DeclaredType.isAggregate, kind, DeclaredType.isAggregate]

/-- A measured member, changed. -/
def measured (m : MeasuredMember) : MeasuredMember := ⟨v.member m.member, m.metrics⟩

@[simp] theorem width_measured (m : MeasuredMember) : (v.measured m).width = m.width := by
  rw [MeasuredMember.width, measured, bitWidth, MeasuredMember.width]

@[simp] theorem metrics_measured (m : MeasuredMember) : (v.measured m).metrics = m.metrics := rfl

@[simp] theorem slot_measured (m : MeasuredMember) (offset : Nat) (bit : Option Nat) :
    (v.measured m).slot offset bit = m.slot offset bit := by
  simp only [MeasuredMember.slot, width_measured, metrics_measured]
  simp only [measured, memberId, memberName, typeString]

theorem placeMembers (space : AddressSpace) (isUnion : Bool) (start : Nat)
    (ms : List MeasuredMember) :
    DeclGraph.placeMembers space isUnion start (ms.map v.measured) =
      DeclGraph.placeMembers space isUnion start ms := by
  have hinOrder : ∀ (ms : List MeasuredMember) (c : Cursor),
      placeInOrder space c (ms.map v.measured) = placeInOrder space c ms := by
    intro ms
    induction ms with
    | nil => exact fun _ => rfl
    | cons m ms ih =>
      intro c
      simp only [List.map_cons, placeInOrder, width_measured, metrics_measured, slot_measured, ih]
  have htogether : ∀ (ms : List MeasuredMember) (stop alignment : Nat),
      placeTogether space start stop alignment (ms.map v.measured) =
        placeTogether space start stop alignment ms := by
    intro ms
    induction ms with
    | nil => exact fun _ _ => rfl
    | cons m ms ih =>
      intro stop alignment
      simp only [List.map_cons, placeTogether, width_measured, metrics_measured, slot_measured, ih]
  rw [DeclGraph.placeMembers, DeclGraph.placeMembers, hinOrder, htogether]

theorem layout (space : AddressSpace) (n : DeclaredType) (bs : List MeasuredBase)
    (ms : List MeasuredMember) :
    (v.type n).layout space bs (ms.map v.measured) = n.layout space bs ms := by
  simp only [DeclaredType.layout, placeMembers, id, kind, alignment, qualifiedName]

end Veil

namespace LayoutInput

/-- What layout reads, with types and members changed. -/
def through (d : LayoutInput) (v : Veil) : LayoutInput :=
  { d with
    types := d.types.mapValues v.type
    members := d.members.mapValues (·.map v.member) }

section Through

variable (d : LayoutInput) (v : Veil) (space : AddressSpace)

theorem find?_types_through (id : TypeId) :
    (d.through v).types.find? id = (d.types.find? id).map v.type := Table.find?_mapValues ..

theorem basesOf_through (id : TypeId) : (d.through v).basesOf id = d.basesOf id := rfl

theorem membersOf_through (id : TypeId) :
    (d.through v).membersOf id = (d.membersOf id).map v.member := by
  rw [membersOf, through, Table.list, Table.find?_mapValues, membersOf, Table.list]
  cases d.members.find? id <;> rfl

theorem depth_through : (d.through v).depth = d.depth := by
  rw [depth, through, Table.size_mapValues, depth]

theorem find?_through (name scope : String) :
    (d.through v).find? name scope = d.find? name scope := by
  unfold find?
  rfl

theorem sizeLink_through (name : String) : (d.through v).sizeLink name = d.sizeLink name := by
  unfold sizeLink
  simp only [find?_through]
  rfl

theorem typedefExtent_through (visited : List String) (name : String) :
    (d.through v).typedefExtent visited name = d.typedefExtent visited name := by
  fun_induction d.typedefExtent visited name with
  | case1 visited name hmem => rw [typedefExtent, dif_pos hmem]
  | case2 visited name hmem hlink =>
    rw [typedefExtent, dif_neg hmem]
    split <;> simp_all [sizeLink_through]
  | case3 visited name hmem leaf count hlink =>
    rw [typedefExtent, dif_neg hmem]
    split <;> simp_all [sizeLink_through]
  | case4 visited name hmem next count hlink rest ih =>
    rw [typedefExtent, dif_neg hmem]
    split
    · simp_all [sizeLink_through]
    · simp_all [sizeLink_through]
    · next hlink' =>
      rw [sizeLink_through, hlink] at hlink'
      obtain ⟨rfl, rfl⟩ := SizeLink.next.inj hlink'
      rw [ih]

theorem elementExtent_through (r : Reference) (scope : String) :
    (d.through v).elementExtent r scope = d.elementExtent r scope := by
  simp only [elementExtent, typedefExtent_through, find?_through]

theorem memberExtent_through (m : Member) (scope : String) :
    (d.through v).memberExtent (v.member m) scope = d.memberExtent m scope := by
  have hreference : (d.through v).referenceOf (v.member m) = d.referenceOf m := by
    rw [referenceOf, Veil.reference, Veil.typeString]
    rfl
  simp only [memberExtent, Veil.isFunctionPointer, hreference, elementExtent_through]

variable {f g : TypeId → LayoutM Metrics}

theorem measureBases_through (es : List BaseEdge) :
    (d.through v).measureBases f es = d.measureBases f es := by
  induction es with
  | nil => rfl
  | cons e es ih =>
    cases htarget : e.target with
    | none => simp only [measureBases, htarget, ih]
    | some id =>
      have hname : ((d.through v).types.find? id).map (·.qualifiedName) =
          (d.types.find? id).map (·.qualifiedName) := by
        rw [find?_types_through, Option.map_map]
        cases d.types.find? id with
        | none => rfl
        | some n => exact congrArg some (v.qualifiedName n)
      simp only [measureBases, htarget, hname, ih]

theorem measureMember_through (scope : String) (m : Member) :
    (d.through v).measureMember space f scope (v.member m) =
      v.measured <$> d.measureMember space f scope m := by
  simp only [measureMember, memberExtent_through, Veil.memberAlignment, map_bind, map_pure]
  rfl

theorem measureMembers_through (scope : String) (ms : List Member) :
    (d.through v).measureMembers space f scope (ms.map v.member) =
      List.map v.measured <$> d.measureMembers space f scope ms := by
  induction ms with
  | nil => rfl
  | cons m ms ih =>
    simp only [List.map_cons, measureMembers, measureMember_through, ih, map_bind, map_pure,
      bind_map_left]

theorem layoutWith_through (n : DeclaredType) :
    (d.through v).layoutWith space f (v.type n) = d.layoutWith space f n := by
  simp only [layoutWith, Veil.id, Veil.qualifiedName, basesOf_through, membersOf_through,
    measureBases_through, measureMembers_through, bind_map_left, Veil.layout]

theorem measureWith_through (n : DeclaredType) :
    (d.through v).measureWith space f (v.type n) = d.measureWith space f n := by
  simp only [measureWith, Veil.kind, Veil.baseName, Veil.alignment, Veil.id, layoutWith_through]

/-- **Types are measured alike.** -/
theorem metricsWithin_through (k : Nat) :
    (d.through v).metricsWithin space k = d.metricsWithin space k := by
  induction k with
  | zero => rfl
  | succ k ih =>
    funext id
    cases hn : d.types.find? id with
    | none => simp only [metricsWithin, find?_types_through, hn, Option.map_none]
    | some n =>
      simp only [metricsWithin, find?_types_through, hn, Option.map_some, Veil.qualifiedName, ih,
        measureWith_through]

theorem metrics_through : (d.through v).metrics space = d.metrics space := by
  funext id
  rw [metrics, depth_through, metricsWithin_through, metrics]

theorem layout?_through (id : TypeId) : (d.through v).layout? space id = d.layout? space id := by
  have haggregate : ((d.through v).types.find? id).map (·.isAggregate) =
      (d.types.find? id).map (·.isAggregate) := by
    rw [find?_types_through, Option.map_map]
    cases d.types.find? id with
    | none => rfl
    | some n => exact congrArg some (v.isAggregate n)
  simp only [layout?, haggregate, metrics_through]

theorem aggregates_through : (d.through v).aggregates = d.aggregates.map v.type := by
  rw [aggregates, through, Table.values_mapValues, aggregates, List.filter_map]
  congr 1
  exact List.filter_congr fun n _ => v.isAggregate n

/-- **Aggregates are laid out alike.** What is kept of ignored marks is in the items too. -/
theorem layItems_through (m : Memo) (ns : List DeclaredType) :
    ((d.through v).layItems m (ns.map v.type)).2 = (d.layItems m ns).2 ∧
      List.Forall₂ (fun i j : LayoutItem => j.layout = i.layout ∧ j.notes = i.notes ∧
          ((∀ n, (v.type n).isIgnored = n.isIgnored) → j.isIgnored = i.isIgnored))
        (d.layItems m ns).1 ((d.through v).layItems m (ns.map v.type)).1 := by
  induction ns generalizing m with
  | nil => exact ⟨rfl, .nil⟩
  | cons n ns ih =>
    simp only [List.map_cons, layItems, layout?_through, Veil.id]
    obtain ⟨hmemo, hitems⟩ := ih (LayoutM.collecting (d.layout? .words n.id) m).2
    split
    · exact ⟨hmemo, .cons ⟨rfl, rfl, fun h => h n⟩ hitems⟩
    · exact ⟨hmemo, hitems⟩

end Through

end LayoutInput

namespace Store

/-- The store with its types and members changed. -/
def through (s : Store) (v : Veil) : Store :=
  { s with types := s.types.mapValues v.type, members := s.members.mapValues v.member }

variable (s : Store) (v : Veil)

theorem aggregates_through : (s.through v).aggregates = s.aggregates.map v.type := by
  rw [aggregates, through, Table.values_mapValues, aggregates, List.filter_map]
  congr 1
  exact List.filter_congr fun n _ => v.isAggregate n

theorem membersOf_through (id : TypeId) :
    (s.through v).membersOf id = (s.membersOf id).map v.member := by
  have hfound : ∀ ids : List MemberId, ids.filterMap (s.through v).members.find? =
      (ids.filterMap s.members.find?).map v.member := by
    intro ids
    rw [List.map_filterMap]
    exact List.filterMap_congr fun id _ => Table.find?_mapValues v.member s.members id
  rw [membersOf, hfound, membersOf, List.map_mergeSort]
  · rfl
  · intro a _ b _
    rw [v.order, v.order, v.memberId, v.memberId]

/-- **Layout reads a changed store as it reads the store**, apart from the change. -/
theorem layoutInput_through : (s.through v).layoutInput = s.layoutInput.through v := by
  have hids : (s.through v).aggregates.map (·.id) = s.aggregates.map (·.id) := by
    rw [aggregates_through, List.map_map]
    exact List.map_congr_left fun n _ => v.id n
  have hcontains : (s.through v).types.contains = s.types.contains :=
    funext (Table.contains_mapValues v.type s.types)
  have hmembers : (s.through v).membersOfEach (s.aggregates.map (·.id)) =
      (s.membersOfEach (s.aggregates.map (·.id))).mapValues (·.map v.member) := by
    rw [membersOfEach, hcontains, membersOfEach, Table.mapValues_ofPairs, List.map_map]
    congr 1
    exact List.map_congr_left fun id _ => congrArg (id, ·) (s.membersOf_through v id)
  have hbases : (s.through v).basesOfEach (s.aggregates.map (·.id)) =
      s.basesOfEach (s.aggregates.map (·.id)) := by
    rw [basesOfEach, hcontains]
    rfl
  have hnames : ((s.through v).types.values.map fun n => (n.qualifiedName, n.id)) =
      s.types.values.map fun n => (n.qualifiedName, n.id) := by
    rw [through, Table.values_mapValues, List.map_map]
    exact List.map_congr_left fun n _ => by
      rw [Function.comp_apply, v.qualifiedName, v.id]
  have hreferences : ∀ t : Table TypeId (List Member),
      (t.mapValues (·.map v.member)).values.flatten.filterMap (·.reference) =
        t.values.flatten.filterMap (·.reference) := by
    intro t
    rw [Table.values_mapValues, ← List.map_flatten, List.filterMap_map]
    exact List.filterMap_congr fun m _ => v.reference m
  rw [layoutInput, hids, hmembers, hbases, hnames, hreferences]
  rfl

/-- **A pass finds the same without sizes and offsets.** -/
theorem layoutItems_unwritten : (s.through .unwritten).layoutItems = s.layoutItems := by
  obtain ⟨hmemo, hitems⟩ :=
    s.layoutInput.layItems_through .unwritten {} s.layoutInput.aggregates
  have hsame : (s.layoutInput.layItems {} s.layoutInput.aggregates).1 =
      ((s.layoutInput.through .unwritten).layItems {}
        (s.layoutInput.aggregates.map Veil.unwritten.type)).1 := by
    rw [← List.forall₂_eq_eq_eq]
    refine hitems.imp fun i j hij => ?_
    obtain ⟨hlayout, hnotes, hignored⟩ := hij
    cases i
    cases j
    rw [LayoutItem.mk.injEq]
    exact ⟨hlayout.symm, (hignored fun _ => rfl).symm, hnotes.symm⟩
  simp only [layoutItems, layoutInput_through, LayoutInput.aggregates_through]
  rw [hmemo, hsame]

end Store

end DeclGraph
