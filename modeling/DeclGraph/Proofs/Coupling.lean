import DeclGraph.Proofs.Bookkeeping

/-!
# Two measurements side by side

Types can be measured twice: in two address spaces, or after they have been declared a second time
under other identities. As long as what is measured on one side corresponds to what is measured on
the other, so do the memos, and what is found there.

* `Coupling`: what corresponds, and why laying out keeps it.
* `Coupling.Like`: memos that correspond.
* `Coupling.layoutWith`: layouts correspond if the metrics of their parts do.
* `Coupling.metricsWithin`, `Coupling.metrics`: **types are measured alike**.
* `Coupling.layout?`: aggregates are laid out alike.
-/

namespace DeclGraph

/-! ## Declarations that correspond -/

/-- Bytes are made of the same, or of types that correspond. -/
inductive Leaf.Like (ids : TypeId → TypeId → Prop) : Leaf → Leaf → Prop
  | pointer : Like ids .pointer .pointer
  | primitive (p : Primitive) : Like ids (.primitive p) (.primitive p)
  | type {i i' : TypeId} (h : ids i i') : Like ids (.type i) (.type i')
  | unsized : Like ids .unsized .unsized

/-- Extents with the same counts of what corresponds. -/
structure Extent.Like (ids : TypeId → TypeId → Prop) (x x' : Extent) : Prop where
  leaf : x.leaf.Like ids x'.leaf
  counts : x'.counts = x.counts

/-- Bases that correspond, or two that are not resolved. -/
structure BaseEdge.Like (ids : TypeId → TypeId → Prop) (b b' : BaseEdge) : Prop where
  typeString : b'.typeString = b.typeString
  target : Option.Rel ids b.target b'.target

/-- Members that are made of what corresponds. -/
structure LayoutInput.MembersLike (d e : LayoutInput) (ids : TypeId → TypeId → Prop)
    (members : Member → Member → Prop) (scope : String) (m m' : Member) : Prop where
  related : members m m'
  alignment : m'.alignment = m.alignment
  extent : Extent.Like ids (d.memberExtent m scope).value (e.memberExtent m' scope).value

/-- Types that are declared alike. -/
structure LayoutInput.TypesLike (d e : LayoutInput) (ids : TypeId → TypeId → Prop)
    (members : Member → Member → Prop) (n n' : DeclaredType) : Prop where
  id : ids n.id n'.id
  baseName : n'.baseName = n.baseName
  kind : n'.kind = n.kind
  alignment : n'.alignment = n.alignment
  qualifiedName : n'.qualifiedName = n.qualifiedName
  bases : List.Forall₂ (BaseEdge.Like ids) (d.basesOf n.id) (e.basesOf n'.id)
  members : List.Forall₂ (d.MembersLike e ids members n.qualifiedName) (d.membersOf n.id)
    (e.membersOf n'.id)

theorem LayoutInput.TypesLike.isAggregate {d e : LayoutInput} {ids : TypeId → TypeId → Prop}
    {members : Member → Member → Prop} {n n' : DeclaredType}
    (h : d.TypesLike e ids members n n') : n'.isAggregate = n.isAggregate := by
  rw [DeclaredType.isAggregate, h.kind, DeclaredType.isAggregate]

/-- Bases with the metrics that correspond. -/
structure MeasuredBase.Like (ids : TypeId → TypeId → Prop) (convert : Metrics → Metrics)
    (b b' : MeasuredBase) : Prop where
  typeId : ids b.typeId b'.typeId
  name : b'.name = b.name
  metrics : b'.metrics = convert b.metrics

/-- Members with the metrics that correspond. -/
structure MeasuredMember.Like (members : Member → Member → Prop) (convert : Metrics → Metrics)
    (m m' : MeasuredMember) : Prop where
  member : members m.member m'.member
  metrics : m'.metrics = convert m.metrics

/-- What corresponds on two sides: types (`ids`), members, metrics (`convert`) and layouts. Laying
out keeps it for those layouts on the left that are `fine`. -/
structure Coupling (d e : LayoutInput) (space space' : AddressSpace) where
  ids : TypeId → TypeId → Prop
  members : Member → Member → Prop
  convert : Metrics → Metrics
  fine : Layout → Prop
  layouts : Layout → Layout → Prop
  size : e.types.size = d.types.size
  ids_iff : ∀ {i i' j j'}, ids i i' → ids j j' → (i = j ↔ i' = j')
  types : ∀ {i i'}, ids i i' →
    Option.Rel (d.TypesLike e ids members) (d.types.find? i) (e.types.find? i')
  fallback : convert .fallback = .fallback
  primitive : ∀ p, convert (.ofPrimitive p) = .ofPrimitive p
  requested : ∀ x a, convert (Metrics.withRequested x a) = (convert x).withRequested a
  array : ∀ x count, convert (Metrics.array space x count) = (convert x).array space' count
  lay : ∀ {n n' bs bs' ms ms'}, d.TypesLike e ids members n n' →
    List.Forall₂ (MeasuredBase.Like ids convert) bs bs' →
    List.Forall₂ (MeasuredMember.Like members convert) ms ms' → fine (n.layout space bs ms) →
    layouts (n.layout space bs ms) (n'.layout space' bs' ms') ∧
      Metrics.make (n'.layout space' bs' ms').size (n'.layout space' bs' ms').alignment =
        convert (.make (n.layout space bs ms).size (n.layout space bs ms).alignment)

theorem eq_none_of_rel {α β : Type} {R : α → β → Prop} {b : Option β}
    (h : Option.Rel R none b) : b = none := by
  cases h
  rfl

theorem exists_of_rel {α β : Type} {R : α → β → Prop} {a : α} {b : Option β}
    (h : Option.Rel R (some a) b) : ∃ y, b = some y ∧ R a y := by
  cases h with
  | some hab => exact ⟨_, rfl, hab⟩

theorem Memo.same_noted (m : Memo) (notes : List Note) : m.Same { m with notes } := ⟨rfl, rfl, rfl⟩

namespace Coupling

variable {d e : LayoutInput} {space space' : AddressSpace} (C : Coupling d e space space')

/-! ## Memos that correspond -/

/-- Memos that correspond. -/
structure Like (M m : Memo) : Prop where
  active : m.active = M.active
  metrics : ∀ name, m.metrics.find? name = (M.metrics.find? name).map C.convert
  layouts : ∀ i i', C.ids i i' → Option.Rel C.layouts (M.layouts.find? i) (m.layouts.find? i')

/-- The layouts of a memo are fine, those of types aside that are being measured. -/
def Good (M : Memo) : Prop :=
  ∀ id l, M.layouts.find? id = some l →
    (∀ n, d.types.find? id = some n → n.qualifiedName ∉ M.active) → C.fine l

/-- From memos that correspond, two computations lead to memos that do, and find what `post` says,
if all layouts on the left are fine then. -/
def Couples {α β : Type} (names : List String) (x : LayoutM α) (y : LayoutM β)
    (post : α → β → Prop) : Prop :=
  ∀ M m, M.Booked d space ∧ M.active = names → C.Like M m → C.Good (x.run M).2 →
    C.Like (x.run M).2 (y.run m).2 ∧ post (x.run M).1 (y.run m).1

variable {C} {M M' m m' : Memo}

theorem Good.of_carries (h : C.Good M') (hM : M.Carries d M') : C.Good M := fun id l hl hidle =>
  h id l (hM.layouts id l hl hidle) (by rwa [hM.active])

/-- A type that has been laid out has a fine layout, and so have those that were before it. -/
theorem Good.of_leave {n : DeclaredType} {l : Layout} {x : Metrics}
    (hn : d.types.find? n.id = some n) (hactive : n.qualifiedName ∈ M.active)
    (hidle : n.qualifiedName ∉ M.active.erase n.qualifiedName)
    (h : C.Good ((M.store n.id l).leave n.qualifiedName x)) :
    C.Good M ∧ C.fine l := by
  constructor
  · intro id l' hl' hother
    refine h id l' ?_ fun n' hn' hmem => hother n' hn' (List.mem_of_mem_erase hmem)
    rw [Memo.leave, Memo.store, Table.find?_insert, if_neg]
    · exact hl'
    · rintro rfl
      exact hother n hn hactive
  · refine h n.id l ?_ fun n' hn' => ?_
    · rw [Memo.leave, Memo.store, Table.find?_insert, if_pos rfl]
    · obtain rfl := Option.some.inj (hn.symm.trans hn')
      exact hidle

namespace Like

theorem fresh : C.Like {} {} := ⟨rfl, fun _ => rfl, fun _ _ _ => .none⟩

theorem same (h : C.Like M m) (hM : M.Same M') (hm : m.Same m') : C.Like M' m' where
  active := by rw [hm.active, hM.active, h.active]
  metrics := by rw [hm.metrics, hM.metrics]; exact h.metrics
  layouts := by rw [hm.layouts, hM.layouts]; exact h.layouts

theorem enter (h : C.Like M m) (name : String) : C.Like (M.enter name) (m.enter name) where
  active := congrArg (name :: ·) h.active
  metrics := h.metrics
  layouts := h.layouts

theorem store (h : C.Like M m) {i i' : TypeId} (hi : C.ids i i') {l l' : Layout}
    (hl : C.layouts l l') : C.Like (M.store i l) (m.store i' l') where
  active := h.active
  metrics := h.metrics
  layouts j j' hj := by
    rw [Memo.store, Memo.store, Table.find?_insert, Table.find?_insert]
    by_cases hij : j = i
    · rw [if_pos hij, if_pos ((C.ids_iff hj hi).1 hij)]
      exact .some hl
    · rw [if_neg hij, if_neg fun heq => hij ((C.ids_iff hj hi).2 heq)]
      exact h.layouts j j' hj

theorem leave (h : C.Like M m) (name : String) (x : Metrics) :
    C.Like (M.leave name x) (m.leave name (C.convert x)) where
  active := by rw [Memo.leave, Memo.leave, h.active]
  metrics other := by
    rw [Memo.find?_leave, Memo.find?_leave]
    split
    · rfl
    · exact h.metrics other
  layouts := h.layouts

end Like

/-! ## Metrics that correspond -/

variable (C)

theorem ofPrimitiveName (name : String) :
    C.convert (.ofPrimitiveName name) = .ofPrimitiveName name := by
  unfold Metrics.ofPrimitiveName
  split
  · exact C.primitive _
  · exact C.fallback

theorem extent {x x' : Extent} (hx : Extent.Like C.ids x x') (y : Metrics) :
    C.convert (x.metrics space y) = x'.metrics space' (C.convert y) := by
  unfold Extent.metrics
  rw [hx.counts]
  induction x.counts generalizing y with
  | nil => rfl
  | cons count counts ih => rw [List.foldl_cons, List.foldl_cons, ih, C.array]

/-- Two types that correspond have one name. -/
theorem name {i i' : TypeId} (hi : C.ids i i') :
    (e.types.find? i').map (·.qualifiedName) = (d.types.find? i).map (·.qualifiedName) := by
  have htypes := C.types hi
  generalize d.types.find? i = n, e.types.find? i' = n' at htypes
  cases htypes with
  | none => rfl
  | some h => exact congrArg some h.qualifiedName

variable {C}

/-! ## Between one type and the next -/

section Between

variable {names : List String} {f g : TypeId → LayoutM Metrics} {hd : d.Distinct}

/-- The types of `ids` are measured alike. -/
def Sizes (C : Coupling d e space space') (names : List String) (ids : List TypeId)
    (f g : TypeId → LayoutM Metrics) : Prop :=
  ∀ i ∈ ids, ∀ i', C.ids i i' → C.Couples names (f i) (g i') fun x y => y = C.convert x

theorem measureBases {es es' : List BaseEdge} (hes : List.Forall₂ (BaseEdge.Like C.ids) es es')
    (hkeeps : ((bookkeeping space hd).during names).Sizes (es.filterMap (·.target)) f)
    (h : C.Sizes names (es.filterMap (·.target)) f g) :
    C.Couples names (d.measureBases f es) (e.measureBases g es')
      (List.Forall₂ (MeasuredBase.Like C.ids C.convert)) := by
  induction hes with
  | nil => exact fun M m _ hlike _ => ⟨hlike, .nil⟩
  | @cons b b' es es' hb hes ih =>
    obtain ⟨htypeString, htarget⟩ := hb
    cases hi : b.target with
    | none =>
      rw [hi] at htarget
      have hi' := eq_none_of_rel htarget
      simp only [hi, List.filterMap_cons] at hkeeps h
      simp only [LayoutInput.measureBases, hi, hi']
      intro M m hM hlike hgood
      simp only [LayoutM.run_bind, LayoutM.run_note] at hgood ⊢
      exact ih hkeeps h _ _ (((bookkeeping space hd).during names).same (M.same_noted _) hM).1
        (hlike.same (M.same_noted _) (m.same_noted _)) hgood
    | some i =>
      rw [hi] at htarget
      obtain ⟨i', hi', hids⟩ := exists_of_rel htarget
      simp only [hi, List.filterMap_cons] at hkeeps h
      simp only [LayoutInput.measureBases, hi, hi']
      intro M m hM hlike hgood
      simp only [LayoutM.run_bind, LayoutM.run_pure] at hgood ⊢
      have hrest : ((bookkeeping space hd).during names).Sizes (es.filterMap (·.target)) f :=
        fun j hj => hkeeps j (List.mem_cons_of_mem _ hj)
      obtain ⟨hM₁, -, -⟩ := hkeeps i List.mem_cons_self M hM
      obtain ⟨-, hcarries, -⟩ := Contract.measureBases es hrest _ hM₁
      obtain ⟨hlike₁, hx⟩ :=
        h i List.mem_cons_self i' hids M m hM hlike (hgood.of_carries hcarries)
      obtain ⟨hlike₂, hbs⟩ :=
        ih hrest (fun j hj => h j (List.mem_cons_of_mem _ hj)) _ _ hM₁ hlike₁ hgood
      refine ⟨hlike₂, .cons ⟨hids, ?_, hx⟩ hbs⟩
      rw [C.name hids, htypeString]

theorem leafMetrics {l l' : Leaf} (hl : l.Like C.ids l')
    (h : ∀ i i', l = .type i → C.ids i i' →
      C.Couples names (f i) (g i') fun x y => y = C.convert x) :
    C.Couples names (LayoutInput.leafMetrics f l) (LayoutInput.leafMetrics g l')
      fun x y => y = C.convert x := by
  cases hl with
  | pointer => exact fun M m _ hlike _ => ⟨hlike, C.fallback.symm⟩
  | primitive p => exact fun M m _ hlike _ => ⟨hlike, (C.primitive p).symm⟩
  | type hi => exact h _ _ rfl hi
  | unsized =>
    exact fun M m _ hlike _ => ⟨hlike.same ⟨rfl, rfl, rfl⟩ ⟨rfl, rfl, rfl⟩, C.fallback.symm⟩

theorem measureMember (hd : d.Distinct) {scope : String} {m m' : Member}
    (hm : d.MembersLike e C.ids C.members scope m m')
    (h : ∀ i i', (d.memberExtent m scope).value.leaf = .type i → C.ids i i' →
      C.Couples names (f i) (g i') fun x y => y = C.convert x) :
    C.Couples names (d.measureMember space f scope m) (e.measureMember space' g scope m')
      (MeasuredMember.Like C.members C.convert) := by
  intro M memo hM hlike hgood
  have hnoted := M.same_noted ((d.memberExtent m scope).notes.reverse ++ M.notes)
  have hnoted' := memo.same_noted ((e.memberExtent m' scope).notes.reverse ++ memo.notes)
  obtain ⟨hlike', hx⟩ := leafMetrics hm.extent.leaf h _ _
    (((bookkeeping space hd).during names).same hnoted hM).1 (hlike.same hnoted hnoted') hgood
  have hmetrics := C.requested ((d.memberExtent m scope).value.metrics space
    ((LayoutInput.leafMetrics f (d.memberExtent m scope).value.leaf).run
      { M with notes := (d.memberExtent m scope).notes.reverse ++ M.notes }).1) m.alignment
  rw [C.extent hm.extent, ← hx] at hmetrics
  exact ⟨hlike', hm.related, (congrArg (Metrics.withRequested _) hm.alignment).trans hmetrics.symm⟩

theorem measureMembers {scope : String} {ms ms' : List Member}
    (hms : List.Forall₂ (d.MembersLike e C.ids C.members scope) ms ms')
    (hkeeps : ∀ m ∈ ms, ∀ i, (d.memberExtent m scope).value.leaf = .type i →
      ((bookkeeping space hd).during names).Keeps (f i) fun m => (bookkeeping space hd).found m i)
    (h : ∀ m ∈ ms, ∀ i i', (d.memberExtent m scope).value.leaf = .type i → C.ids i i' →
      C.Couples names (f i) (g i') fun x y => y = C.convert x) :
    C.Couples names (d.measureMembers space f scope ms) (e.measureMembers space' g scope ms')
      (List.Forall₂ (MeasuredMember.Like C.members C.convert)) := by
  induction hms with
  | nil => exact fun M m _ hlike _ => ⟨hlike, .nil⟩
  | @cons m m' ms ms' hm hms ih =>
    rw [List.forall_mem_cons] at hkeeps h
    intro M memo hM hlike hgood
    simp only [LayoutInput.measureMembers, LayoutM.run_bind, LayoutM.run_pure] at hgood ⊢
    have hkeepsFirst : ((bookkeeping space hd).during names).Keeps
        (d.measureMember space f scope m) _ := Contract.measureMember hkeeps.1
    have hkeepsRest : ((bookkeeping space hd).during names).Keeps
        (d.measureMembers space f scope ms) _ := Contract.measureMembers ms hkeeps.2
    obtain ⟨hM₁, -, -⟩ := hkeepsFirst M hM
    obtain ⟨-, hcarries, -⟩ := hkeepsRest _ hM₁
    obtain ⟨hlike₁, hmm⟩ := measureMember hd hm h.1 M memo hM hlike (hgood.of_carries hcarries)
    obtain ⟨hlike₂, hmms⟩ := ih hkeeps.2 h.2 _ _ hM₁ hlike₁ hgood
    exact ⟨hlike₂, .cons hmm hmms⟩

/-- **Layouts correspond** if the metrics of their parts do. -/
theorem layoutWith {n n' : DeclaredType} (hn : d.TypesLike e C.ids C.members n n')
    (hkeeps : ((bookkeeping space hd).during names).Sizes (d.partsOf n) f)
    (h : C.Sizes names (d.partsOf n) f g) :
    C.Couples names (d.layoutWith space f n) (e.layoutWith space' g n') fun l l' =>
      C.fine l → C.layouts l l' ∧
        Metrics.make l'.size l'.alignment = C.convert (.make l.size l.alignment) := by
  have hbases : ∀ i ∈ (d.basesOf n.id).filterMap (·.target), i ∈ d.partsOf n := fun i hi =>
    List.mem_append_left _ hi
  have hmembers : ∀ m ∈ d.membersOf n.id, ∀ i,
      (d.memberExtent m n.qualifiedName).value.leaf = .type i → i ∈ d.partsOf n := fun m hm i hi =>
    List.mem_append_right _ (List.mem_filterMap.2 ⟨m, hm, by rw [hi]⟩)
  intro M m hM hlike hgood
  simp only [LayoutInput.layoutWith, LayoutM.run_bind, LayoutM.run_pure, hn.qualifiedName]
    at hgood ⊢
  have hkeepsBases : ((bookkeeping space hd).during names).Sizes
      ((d.basesOf n.id).filterMap (·.target)) f := fun i hi => hkeeps i (hbases i hi)
  have hkeepsMembers : ((bookkeeping space hd).during names).Keeps
      (d.measureMembers space f n.qualifiedName (d.membersOf n.id)) _ :=
    Contract.measureMembers _ fun m hm i hi => hkeeps i (hmembers m hm i hi)
  obtain ⟨hM₁, -, -⟩ := Contract.measureBases (d := d) _ hkeepsBases M hM
  obtain ⟨-, hcarries, -⟩ := hkeepsMembers _ hM₁
  obtain ⟨hlike₁, hbs⟩ := measureBases hn.bases hkeepsBases (fun i hi => h i (hbases i hi)) M m hM
    hlike (hgood.of_carries hcarries)
  obtain ⟨hlike₂, hms⟩ := measureMembers hn.members
    (fun m hm i hi => hkeeps i (hmembers m hm i hi))
    (fun m hm i i' hi => h i (hmembers m hm i hi) i') _ _ hM₁ hlike₁ hgood
  exact ⟨hlike₂, fun hfine => C.lay hn hbs hms hfine⟩

/-- A type is measured alike while its name is active. -/
theorem measureWith {n n' : DeclaredType} (hn : d.types.find? n.id = some n)
    (htype : d.TypesLike e C.ids C.members n n') (hM : M.Booked d space ∧ M.active = names)
    (hlike : C.Like M m) (hactive : n.qualifiedName ∉ M.active)
    (hkeeps : ((bookkeeping space hd).during (n.qualifiedName :: names)).Sizes (d.partsOf n) f)
    (h : C.Sizes (n.qualifiedName :: names) (d.partsOf n) f g)
    (hgood : C.Good (((d.measureWith space f n).run (M.enter n.qualifiedName)).2.leave
      n.qualifiedName ((d.measureWith space f n).run (M.enter n.qualifiedName)).1)) :
    C.Like (((d.measureWith space f n).run (M.enter n.qualifiedName)).2.leave n.qualifiedName
        ((d.measureWith space f n).run (M.enter n.qualifiedName)).1)
      (((e.measureWith space' g n').run (m.enter n.qualifiedName)).2.leave n.qualifiedName
        ((e.measureWith space' g n').run (m.enter n.qualifiedName)).1) ∧
    ((e.measureWith space' g n').run (m.enter n.qualifiedName)).1 =
      C.convert ((d.measureWith space f n).run (M.enter n.qualifiedName)).1 := by
  have henter := hlike.enter n.qualifiedName
  cases hagg : n.isAggregate with
  | true =>
    have hagg' := htype.isAggregate.trans hagg
    simp only [d.measureWith_of_isAggregate space f hagg,
      e.measureWith_of_isAggregate space' g hagg', LayoutM.run_bind, LayoutM.run_modify,
      LayoutM.run_pure] at hgood ⊢
    have hentered : (M.enter n.qualifiedName).Booked d space ∧
        (M.enter n.qualifiedName).active = n.qualifiedName :: names :=
      ⟨hM.1.enter hn hactive, congrArg (n.qualifiedName :: ·) hM.2⟩
    have hkeepsLayout : ((bookkeeping space hd).during (n.qualifiedName :: names)).Keeps
        (d.layoutWith space f n) _ := Contract.layoutWith hkeeps
    obtain ⟨⟨-, hnames⟩, -, -⟩ := hkeepsLayout _ hentered
    have hname : n.qualifiedName ∉ names := hM.2 ▸ hactive
    obtain ⟨hbefore, hfine⟩ := hgood.of_leave hn (by rw [hnames]; exact List.mem_cons_self)
      (by rw [hnames, List.erase_cons_head]; exact hname)
    obtain ⟨hlaid, hlayouts⟩ := layoutWith htype hkeeps h _ _ hentered henter hbefore
    obtain ⟨hlayout, hmetrics⟩ := hlayouts hfine
    rw [hmetrics]
    exact ⟨(hlaid.store htype.id hlayout).leave _ _, rfl⟩
  | false =>
    have hagg' := htype.isAggregate.trans hagg
    by_cases hk : n.kind = .primitive
    · have hk' : n'.kind = .primitive := htype.kind.trans hk
      simp only [LayoutInput.measureWith, hk, hk', LayoutM.run_pure, htype.baseName,
        htype.alignment]
      have hmetrics := C.requested (.ofPrimitiveName n.baseName) n.alignment
      rw [C.ofPrimitiveName] at hmetrics
      have hleft := henter.leave n.qualifiedName
        ((Metrics.ofPrimitiveName n.baseName).withRequested n.alignment)
      rw [hmetrics] at hleft
      exact ⟨hleft, hmetrics.symm⟩
    · have hk' : n'.kind ≠ .primitive := fun heq => hk (htype.kind.symm.trans heq)
      simp only [d.measureWith_of_not_isAggregate space f hagg hk,
        e.measureWith_of_not_isAggregate space' g hagg' hk', LayoutM.run_pure, htype.alignment]
      have hmetrics := C.requested .fallback n.alignment
      rw [C.fallback] at hmetrics
      have hleft := henter.leave n.qualifiedName (Metrics.fallback.withRequested n.alignment)
      rw [hmetrics] at hleft
      exact ⟨hleft, hmetrics.symm⟩

end Between

/-! ## The recursion -/

/-- **Types that correspond are measured alike**, from every depth that is enough. -/
theorem metricsWithin (C : Coupling d e space space') (hd : d.Distinct) {k : Nat} :
    ∀ {names : List String} {i i' : TypeId}, d.types.size < k + names.length → C.ids i i' →
      C.Couples names (d.metricsWithin space k i) (e.metricsWithin space' k i')
        fun x y => y = C.convert x := by
  -- on the depth, for all names that are active and all types
  induction k with
  | zero => exact fun _ _ M m _ hlike _ => ⟨hlike, C.fallback.symm⟩
  | succ k ih =>
    intro names i i' hk hi M m hM hlike hgood
    have htypes := C.types hi
    cases hn : d.types.find? i with
    | none =>
      rw [hn] at htypes
      have hn' := eq_none_of_rel htypes
      simp only [LayoutInput.metricsWithin, hn, hn']
      exact ⟨hlike, C.fallback.symm⟩
    | some n =>
      rw [hn] at htypes
      obtain ⟨n', hn', htype⟩ := exists_of_rel htypes
      obtain rfl := hd.id hn
      have hmetrics := hlike.metrics n.qualifiedName
      simp only [LayoutInput.metricsWithin, hn, hn', LayoutM.run_bind, LayoutM.run_get,
        htype.qualifiedName] at hgood ⊢
      cases hx : M.metrics.find? n.qualifiedName with
      | some x =>
        rw [hx, Option.map_some] at hmetrics
        simp only [hmetrics]
        exact ⟨hlike, rfl⟩
      | none =>
        rw [hx, Option.map_none] at hmetrics
        by_cases hactive : n.qualifiedName ∈ M.active
        · have hactive' : n.qualifiedName ∈ m.active := hlike.active ▸ hactive
          simp only [hmetrics, hactive, hactive', if_true, LayoutM.run_bind, LayoutM.run_note,
            LayoutM.run_pure]
          exact ⟨hlike.same (M.same_noted _) (m.same_noted _), C.fallback.symm⟩
        · have hactive' : n.qualifiedName ∉ m.active := hlike.active ▸ hactive
          simp only [hx, hmetrics, hactive, hactive', if_false, LayoutM.run_bind,
            LayoutM.run_modify, LayoutM.run_pure] at hgood ⊢
          have hdepth : d.types.size < k + (n.qualifiedName :: names).length := by
            rw [List.length_cons]
            omega
          exact measureWith hn htype hM hlike hactive
            (fun _ _ => (bookkeeping space hd).metricsWithin hdepth) (fun _ _ _ => ih hdepth) hgood

theorem metrics (C : Coupling d e space space') (hd : d.Distinct) {i i' : TypeId}
    (hi : C.ids i i') :
    C.Couples [] (d.metrics space i) (e.metrics space' i') fun x y => y = C.convert x := by
  have hdepth : e.depth = d.depth := congrArg (· + 1) C.size
  rw [LayoutInput.metrics, LayoutInput.metrics, hdepth]
  exact C.metricsWithin hd (Nat.lt_succ_self _) hi

/-- **Aggregates are laid out alike.** -/
theorem layout? (C : Coupling d e space space') (hd : d.Distinct) {i i' : TypeId}
    (hi : C.ids i i') :
    C.Couples [] (d.layout? space i) (e.layout? space' i') (Option.Rel C.layouts) := by
  intro M m hM hlike hgood
  have htypes := C.types hi
  have hlayouts := hlike.layouts i i' hi
  have hcontains : m.layouts.contains i' = M.layouts.contains i := by
    rw [Table.contains, Table.contains]
    generalize M.layouts.find? i = l, m.layouts.find? i' = l' at hlayouts
    cases hlayouts <;> rfl
  rcases d.run_layout? space i M with ⟨n, hn, hagg, hrun⟩ | ⟨hnone, hrun⟩
  · rw [hn] at htypes
    obtain ⟨n', hn', htype⟩ := exists_of_rel htypes
    have hagg' := htype.isAggregate.trans hagg
    rcases e.run_layout? space' i' m with ⟨-, -, -, hrun'⟩ | ⟨hnone', -⟩
    · rw [hrun] at hgood
      rw [hrun, hrun']
      simp only [LayoutInput.afterLayout, hcontains] at hgood ⊢
      split
      · exact ⟨hlike, hlayouts⟩
      · next hmiss =>
        rw [if_neg hmiss] at hgood
        obtain ⟨hlike', -⟩ := C.metrics hd hi M m hM hlike hgood
        exact ⟨hlike', hlike'.layouts i i' hi⟩
    · rw [hnone' n' hn'] at hagg'
      cases hagg'
  · rcases e.run_layout? space' i' m with ⟨n', hn', hagg', -⟩ | ⟨-, hrun'⟩
    · generalize ho : d.types.find? i = o at htypes
      rw [hn'] at htypes
      cases htypes with
      | some htype =>
        rw [htype.isAggregate, hnone _ ho] at hagg'
        cases hagg'
    · rw [hrun, hrun']
      exact ⟨hlike, .none⟩

end Coupling

end DeclGraph
