import DeclGraph.Layout.Memo
import DeclGraph.Proofs.Tables

/-!
# What measuring types keeps

Measuring is a recursion through bases and members that reads and writes one memo. A `Contract`
says what a measurement keeps of the memo, how the memo may change, and what is found. The
functions between one measurement and the next keep every contract that measurements keep, so
what holds of all runs is shown once for each contract and not for each function.

* `Contract.measureBases`, `Contract.measureMembers`, `Contract.layoutWith`: the functions between.
* `LayoutInput.MadeOf`: a layout is made of metrics that were found.
* `LayoutInput.serve_keeps`: a request keeps what measurements keep.
* `LayoutInput.Reached`: the memos that requests lead to, in any order.
* `LayoutInput.Reached.inv`: what all measurements keep holds of every memo that is reached.
-/

namespace DeclGraph

namespace LayoutM

variable {α β : Type}

@[simp] theorem run_pure (a : α) (m : Memo) : (pure a : LayoutM α).run m = (a, m) := rfl

@[simp] theorem run_bind (x : LayoutM α) (f : α → LayoutM β) (m : Memo) :
    (x >>= f).run m = (f (x.run m).1).run (x.run m).2 := rfl

@[simp] theorem run_get (m : Memo) : (get : LayoutM Memo).run m = (m, m) := rfl

@[simp] theorem run_modify (f : Memo → Memo) (m : Memo) :
    (modify f : LayoutM Unit).run m = ((), f m) := rfl

@[simp] theorem run_note (level : Level) (text : String) (m : Memo) :
    (note level text).run m = ((), { m with notes := ⟨level, text⟩ :: m.notes }) := rfl

/-- What is seen of a result shows that there is one. -/
theorem exists_run_of_map {x : LayoutM (Option α)} {m : Memo} {f : α → β} {b : β}
    (h : (x.run m).1.map f = some b) : ∃ a m', x.run m = (some a, m') ∧ f a = b := by
  obtain ⟨a, ha, hb⟩ := Option.map_eq_some_iff.1 h
  exact ⟨a, (x.run m).2, Prod.ext ha rfl, hb⟩

end LayoutM

/-- Memos that differ at most in what was noted and counted. -/
structure Memo.Same (m m' : Memo) : Prop where
  active : m'.active = m.active
  metrics : m'.metrics = m.metrics
  layouts : m'.layouts = m.layouts

/-- A memo has all metrics that an earlier one had. -/
structure Memo.Extends (m m' : Memo) : Prop where
  active : m'.active = m.active
  metrics : ∀ name x, m.metrics.find? name = some x → m'.metrics.find? name = some x

namespace Memo

variable {m₁ m₂ m₃ : Memo}

theorem Same.extends (h : m₁.Same m₂) : m₁.Extends m₂ :=
  ⟨h.active, fun _ _ hx => h.metrics ▸ hx⟩

theorem Extends.refl (m : Memo) : m.Extends m := ⟨rfl, fun _ _ hx => hx⟩

theorem Extends.trans (h₁ : m₁.Extends m₂) (h₂ : m₂.Extends m₃) : m₁.Extends m₃ :=
  ⟨h₂.active.trans h₁.active, fun _ _ hx => h₂.metrics _ _ (h₁.metrics _ _ hx)⟩

/-- A type that is left has metrics, and those of all others are as before. -/
theorem find?_leave (m : Memo) (name : String) (x : Metrics) (other : String) :
    (m.leave name x).metrics.find? other =
      if other = name then some x else m.metrics.find? other :=
  Table.find?_insert ..

/-- The type that is left is the one that was entered last. -/
theorem Extends.active_leave {name : String} (h : (m₁.enter name).Extends m₂) (x : Metrics) :
    (m₂.leave name x).active = m₁.active := by
  rw [Memo.leave, h.active]
  exact List.erase_cons_head ..

/-- Leaving a type that was entered extends what there was before. -/
theorem Extends.leave {name : String} (h : (m₁.enter name).Extends m₂)
    (hname : m₁.metrics.find? name = none) (x : Metrics) : m₁.Extends (m₂.leave name x) where
  active := h.active_leave x
  metrics other y hy := by
    rw [find?_leave, if_neg]
    · exact h.metrics _ _ hy
    · rintro rfl
      rw [hname] at hy
      simp at hy

end Memo

/-- What measurements keep (`inv`), how they change a memo (`grows`), and what they find. -/
structure Contract where
  inv : Memo → Prop
  grows : Memo → Memo → Prop
  found : Memo → TypeId → Metrics → Prop
  refl : ∀ m, grows m m
  trans : ∀ {m₁ m₂ m₃}, grows m₁ m₂ → grows m₂ m₃ → grows m₁ m₃
  same : ∀ {m m'}, m.Same m' → inv m → inv m' ∧ grows m m'
  keep : ∀ {m m' id x}, grows m m' → found m id x → found m' id x

/-- The metrics of a leaf, if those of types satisfy `P`. -/
def Leaf.Measured (P : TypeId → Metrics → Prop) : Leaf → Metrics → Prop
  | .pointer, x => x = .pointer
  | .primitive p, x => x = .ofPrimitive p
  | .type id, x => P id x
  | .unsized, x => x = .fallback

/-- The types that a declared type has as parts: those of its resolved bases, and those that its
members are made of. -/
def LayoutInput.partsOf (d : LayoutInput) (n : DeclaredType) : List TypeId :=
  (d.basesOf n.id).filterMap (·.target) ++
    (d.membersOf n.id).filterMap fun m =>
      match (d.memberExtent m n.qualifiedName).value.leaf with
      | .type id => some id
      | _ => none

/-- Keeps the layout of a type. -/
def Memo.store (id : TypeId) (l : Layout) (m : Memo) : Memo :=
  { m with layouts := m.layouts.insert id l }

section Made

variable (d : LayoutInput) (space : AddressSpace)

/-- A base measured for an edge. -/
structure BaseMeasured (P : TypeId → Metrics → Prop) (e : BaseEdge) (b : MeasuredBase) : Prop where
  target : e.target = some b.typeId
  name : b.name = ((d.types.find? b.typeId).map (·.qualifiedName)).getD e.typeString
  metrics : P b.typeId b.metrics

/-- A member measured in a scope. -/
structure MemberMeasured (P : TypeId → Metrics → Prop) (scope : String) (m : Member)
    (mm : MeasuredMember) : Prop where
  member : mm.member = m
  metrics : ∃ x, (d.memberExtent m scope).value.leaf.Measured P x ∧
    mm.metrics = ((d.memberExtent m scope).value.metrics space x).withRequested m.alignment

/-- **The layout of a type is made of metrics that satisfy `P`**: those of its resolved bases in
order, and those that its members are made of. -/
def LayoutInput.MadeOf (P : TypeId → Metrics → Prop) (n : DeclaredType) (l : Layout) : Prop :=
  ∃ bs ms, List.Forall₂ (BaseMeasured d P) ((d.basesOf n.id).filter (·.target.isSome)) bs ∧
    List.Forall₂ (MemberMeasured d space P n.qualifiedName) (d.membersOf n.id) ms ∧
    l = n.layout space bs ms

/-- The metrics of a type, if those of its parts satisfy `P`. The layout of an aggregate is among
`layouts`. -/
inductive LayoutInput.Measured (P : TypeId → Metrics → Prop) (layouts : Table TypeId Layout)
    (n : DeclaredType) : Metrics → Prop
  | primitive (hk : n.kind = .primitive) :
    Measured P layouts n ((Metrics.ofPrimitiveName n.baseName).withRequested n.alignment)
  | unsized (hagg : n.isAggregate = false) (hk : n.kind ≠ .primitive) :
    Measured P layouts n (Metrics.fallback.withRequested n.alignment)
  | aggregate {l : Layout} (hagg : n.isAggregate = true) (hl : d.MadeOf space P n l)
      (hfind : layouts.find? n.id = some l) : Measured P layouts n (.make l.size l.alignment)

variable {d space} {P Q : TypeId → Metrics → Prop}

theorem Leaf.Measured.mono (h : ∀ id x, P id x → Q id x) {l : Leaf} {x : Metrics}
    (hl : l.Measured P x) : l.Measured Q x := by
  cases l with
  | type id => exact h id x hl
  | _ => exact hl

theorem BaseMeasured.mono (h : ∀ id x, P id x → Q id x) {e : BaseEdge} {b : MeasuredBase}
    (hb : BaseMeasured d P e b) : BaseMeasured d Q e b :=
  ⟨hb.target, hb.name, h _ _ hb.metrics⟩

theorem MemberMeasured.mono (h : ∀ id x, P id x → Q id x) {scope : String} {m : Member}
    {mm : MeasuredMember} (hm : MemberMeasured d space P scope m mm) :
    MemberMeasured d space Q scope m mm := by
  obtain ⟨hmember, x, hx, hmetrics⟩ := hm
  exact ⟨hmember, x, hx.mono h, hmetrics⟩

theorem LayoutInput.MadeOf.mono (h : ∀ id x, P id x → Q id x) {n : DeclaredType} {l : Layout}
    (hl : d.MadeOf space P n l) : d.MadeOf space Q n l := by
  obtain ⟨bs, ms, hbs, hms, rfl⟩ := hl
  exact ⟨bs, ms, hbs.imp fun _ _ => .mono h, hms.imp fun _ _ => .mono h, rfl⟩

theorem LayoutInput.Measured.contains_layouts {layouts : Table TypeId Layout} {n : DeclaredType}
    {x : Metrics} (h : d.Measured space P layouts n x) (hagg : n.isAggregate = true) :
    layouts.contains n.id = true := by
  cases h with
  | primitive hk => simp [DeclaredType.isAggregate, hk, Kind.isAggregate] at hagg
  | unsized hagg' => simp [hagg'] at hagg
  | aggregate _ _ hfind =>
    rw [Table.contains, hfind]
    rfl

end Made

namespace LayoutInput

variable (d : LayoutInput) (space : AddressSpace) (sizeOf : TypeId → LayoutM Metrics)
  {n : DeclaredType}

theorem measureWith_of_isAggregate (h : n.isAggregate = true) :
    d.measureWith space sizeOf n = (do
      let l ← d.layoutWith space sizeOf n
      modify (Memo.store n.id l)
      return .make l.size l.alignment) := by
  rw [DeclaredType.isAggregate] at h
  cases hk : n.kind with
  | struct | class_ | union => simp only [measureWith, hk]; rfl
  | enum | primitive | unknown => simp [hk, Kind.isAggregate] at h

theorem measureWith_of_not_isAggregate (h : n.isAggregate = false) (hk : n.kind ≠ .primitive) :
    d.measureWith space sizeOf n = return Metrics.fallback.withRequested n.alignment := by
  rw [DeclaredType.isAggregate] at h
  cases hk' : n.kind with
  | struct | class_ | union => simp [hk', Kind.isAggregate] at h
  | enum | unknown => simp only [measureWith, hk']
  | primitive => exact absurd hk' hk

end LayoutInput

namespace Contract

variable (C : Contract) {d : LayoutInput} {space : AddressSpace}

/-- From memos with the invariant, a computation leads to memos with it, and `post` holds there. -/
def Keeps {α : Type} (x : LayoutM α) (post : Memo → α → Prop) : Prop :=
  ∀ m, C.inv m → C.inv (x.run m).2 ∧ C.grows m (x.run m).2 ∧ post (x.run m).2 (x.run m).1

variable {C} {sizeOf : TypeId → LayoutM Metrics}

variable (C) in
/-- The types of `ids` are measured as the contract says. -/
def Sizes (ids : List TypeId) (sizeOf : TypeId → LayoutM Metrics) : Prop :=
  ∀ id ∈ ids, C.Keeps (sizeOf id) fun m x => C.found m id x

theorem measureBases (es : List BaseEdge) (h : C.Sizes (es.filterMap (·.target)) sizeOf) :
    C.Keeps (d.measureBases sizeOf es) fun m bs =>
      List.Forall₂ (BaseMeasured d (C.found m)) (es.filter (·.target.isSome)) bs := by
  induction es with
  | nil => exact fun m hm => ⟨hm, C.refl m, .nil⟩
  | cons e es ih =>
    cases he : e.target with
    | none =>
      simp only [LayoutInput.measureBases, he, List.filterMap_cons, List.filter_cons,
        Option.isSome_none, Bool.false_eq_true, if_false] at h ⊢
      intro m hm
      simp only [LayoutM.run_bind, LayoutM.run_note]
      generalize hm' : ({ m with notes := _ } : Memo) = m'
      have hsame : m.Same m' := by subst hm'; exact ⟨rfl, rfl, rfl⟩
      obtain ⟨h1, h2⟩ := C.same hsame hm
      obtain ⟨h3, h4, h5⟩ := ih h _ h1
      exact ⟨h3, C.trans h2 h4, h5⟩
    | some id =>
      simp only [LayoutInput.measureBases, he, List.filterMap_cons, List.filter_cons,
        Option.isSome_some, if_true] at h ⊢
      intro m hm
      obtain ⟨h1, h2, h3⟩ := h id (by simp) m hm
      obtain ⟨h4, h5, h6⟩ := ih (fun id hid => h id (by simp [hid])) _ h1
      exact ⟨h4, C.trans h2 h5, .cons ⟨he, rfl, C.keep h5 h3⟩ h6⟩

theorem leafMetrics {l : Leaf}
    (h : ∀ id, l = .type id → C.Keeps (sizeOf id) fun m => C.found m id) :
    C.Keeps (LayoutInput.leafMetrics sizeOf l) fun m => l.Measured (C.found m) := by
  cases l with
  | pointer => exact fun m hm => ⟨hm, C.refl m, rfl⟩
  | primitive p => exact fun m hm => ⟨hm, C.refl m, rfl⟩
  | type id => exact h id rfl
  | unsized =>
    intro m hm
    have hsame : m.Same { m with defaulted := m.defaulted + 1 } := ⟨rfl, rfl, rfl⟩
    obtain ⟨h1, h2⟩ := C.same hsame hm
    exact ⟨h1, h2, rfl⟩

theorem measureMember {scope : String} {m : Member}
    (h : ∀ id, (d.memberExtent m scope).value.leaf = .type id →
      C.Keeps (sizeOf id) fun m => C.found m id) :
    C.Keeps (d.measureMember space sizeOf scope m) fun memo =>
      MemberMeasured d space (C.found memo) scope m := by
  intro memo hm
  have hsame : memo.Same { memo with
      notes := (d.memberExtent m scope).notes.reverse ++ memo.notes } := ⟨rfl, rfl, rfl⟩
  obtain ⟨h1, h2⟩ := C.same hsame hm
  obtain ⟨h3, h4, h5⟩ := leafMetrics h _ h1
  exact ⟨h3, C.trans h2 h4, rfl, _, h5, rfl⟩

/-- The types that members are made of. -/
theorem measureMembers {scope : String} (ms : List Member)
    (h : ∀ m ∈ ms, ∀ id, (d.memberExtent m scope).value.leaf = .type id →
      C.Keeps (sizeOf id) fun m => C.found m id) :
    C.Keeps (d.measureMembers space sizeOf scope ms) fun memo =>
      List.Forall₂ (MemberMeasured d space (C.found memo) scope) ms := by
  induction ms with
  | nil => exact fun m hm => ⟨hm, C.refl m, .nil⟩
  | cons m ms ih =>
    intro memo hm
    obtain ⟨h1, h2, h3⟩ := measureMember (h m (by simp)) memo hm
    obtain ⟨h4, h5, h6⟩ := ih (fun m hm => h m (by simp [hm])) _ h1
    exact ⟨h4, C.trans h2 h5, .cons (h3.mono fun _ _ => C.keep h5) h6⟩

theorem layoutWith {n : DeclaredType} (h : C.Sizes (d.partsOf n) sizeOf) :
    C.Keeps (d.layoutWith space sizeOf n) fun m => d.MadeOf space (C.found m) n := by
  have hbases : C.Sizes ((d.basesOf n.id).filterMap (·.target)) sizeOf := fun id hid =>
    h id (List.mem_append_left _ hid)
  have hmembers : ∀ m ∈ d.membersOf n.id, ∀ id,
      (d.memberExtent m n.qualifiedName).value.leaf = .type id →
      C.Keeps (sizeOf id) fun m => C.found m id := fun m hm id hid =>
    h id (List.mem_append_right _ (List.mem_filterMap.2 ⟨m, hm, by rw [hid]⟩))
  intro memo hm
  obtain ⟨h1, h2, h3⟩ := measureBases _ hbases memo hm
  obtain ⟨h4, h5, h6⟩ := measureMembers _ hmembers _ h1
  exact ⟨h4, C.trans h2 h5, _, _, h3.imp fun _ _ => .mono fun _ _ => C.keep h5, h6, rfl⟩

theorem measureWith {n : DeclaredType} (h : C.Sizes (d.partsOf n) sizeOf)
    (hstore : ∀ m l, C.inv m → n.isAggregate = true → d.MadeOf space (C.found m) n l →
      C.inv (m.store n.id l) ∧ C.grows m (m.store n.id l)) :
    C.Keeps (d.measureWith space sizeOf n) fun m => d.Measured space (C.found m) m.layouts n := by
  intro memo hm
  cases hagg : n.isAggregate with
  | true =>
    rw [d.measureWith_of_isAggregate space sizeOf hagg]
    obtain ⟨h1, h2, h3⟩ := layoutWith h memo hm
    obtain ⟨h4, h5⟩ := hstore _ _ h1 hagg h3
    have hfind := Table.find?_insert ((d.layoutWith space sizeOf n).run memo).2.layouts n.id n.id
      ((d.layoutWith space sizeOf n).run memo).1
    rw [if_pos rfl] at hfind
    exact ⟨h4, C.trans h2 h5, .aggregate hagg (h3.mono fun _ _ => C.keep h5) hfind⟩
  | false =>
    by_cases hk : n.kind = .primitive
    · simp only [LayoutInput.measureWith, hk]
      exact ⟨hm, C.refl _, .primitive hk⟩
    · rw [d.measureWith_of_not_isAggregate space sizeOf hagg hk]
      exact ⟨hm, C.refl _, .unsized hagg hk⟩

end Contract

/-! ## The recursion -/

/-- A contract that the guarded recursion keeps, if it starts deep enough for the names that are
being measured. -/
structure Discipline (d : LayoutInput) (space : AddressSpace) extends Contract where
  /-- The depths that are enough for a type while names are active. -/
  enough : Nat → List String → TypeId → Prop
  active : ∀ {m m'}, grows m m' → m'.active = m.active
  part : ∀ {k names id n p}, enough (k + 1) names id → d.types.find? id = some n →
    p ∈ d.partsOf n → enough k (n.qualifiedName :: names) p
  spent : ∀ {m id}, inv m → enough 0 m.active id → found m id .fallback
  unknown : ∀ {m id}, d.types.find? id = none → found m id .fallback
  known : ∀ {m id n x}, inv m → d.types.find? id = some n →
    m.metrics.find? n.qualifiedName = some x → found m id x
  cycle : ∀ {m k id n}, inv m → enough (k + 1) m.active id → d.types.find? id = some n →
    n.qualifiedName ∈ m.active → found m id .fallback
  enter : ∀ {m id n}, inv m → d.types.find? id = some n →
    m.metrics.find? n.qualifiedName = none → n.qualifiedName ∉ m.active →
    inv (m.enter n.qualifiedName)
  store : ∀ {m id n l}, inv m → d.types.find? id = some n → n.isAggregate = true →
    n.qualifiedName ∈ m.active → d.MadeOf space (found m) n l →
    inv (m.store n.id l) ∧ grows m (m.store n.id l)
  leave : ∀ {m m' id n x}, inv m → d.types.find? id = some n →
    m.metrics.find? n.qualifiedName = none → n.qualifiedName ∉ m.active →
    inv m' → grows (m.enter n.qualifiedName) m' →
    d.Measured space (found m') m'.layouts n x →
    inv (m'.leave n.qualifiedName x) ∧ grows m (m'.leave n.qualifiedName x) ∧
      found (m'.leave n.qualifiedName x) id x

namespace Discipline

variable {d : LayoutInput} {space : AddressSpace} (D : Discipline d space)

/-- The contract while certain names are active. -/
def during (names : List String) : Contract :=
  { D.toContract with
    inv := fun m => D.inv m ∧ m.active = names
    same := fun hs hm =>
      ⟨⟨(D.same hs hm.1).1, hs.active.trans hm.2⟩, (D.same hs hm.1).2⟩ }

/-- **A type is measured as the discipline says**, from every depth that is enough. -/
theorem metricsWithin {k : Nat} : ∀ {names : List String} {id : TypeId}, D.enough k names id →
    (D.during names).Keeps (d.metricsWithin space k id) fun m => D.found m id := by
  -- on the depth, for all names: the names that are active are part of what is kept
  induction k with
  | zero =>
    rintro names id hk m ⟨hm, rfl⟩
    exact ⟨⟨hm, rfl⟩, D.refl m, D.spent hm hk⟩
  | succ k ih =>
    rintro names id hk m ⟨hm, rfl⟩
    cases hn : d.types.find? id with
    | none =>
      simp only [LayoutInput.metricsWithin, hn]
      exact ⟨⟨hm, rfl⟩, D.refl m, D.unknown hn⟩
    | some n =>
      simp only [LayoutInput.metricsWithin, hn, LayoutM.run_bind, LayoutM.run_get]
      cases hx : m.metrics.find? n.qualifiedName with
      | some x => exact ⟨⟨hm, rfl⟩, D.refl m, D.known hm hn hx⟩
      | none =>
        by_cases hactive : n.qualifiedName ∈ m.active
        -- the type contains itself by value, and gets the fallback
        · simp only [hactive, if_true, LayoutM.run_bind, LayoutM.run_note]
          generalize hm' : ({ m with notes := _ } : Memo) = m'
          have hsame : m.Same m' := by subst hm'; exact ⟨rfl, rfl, rfl⟩
          obtain ⟨h1, h2⟩ := D.same hsame hm
          exact ⟨⟨h1, hsame.active⟩, h2, D.keep h2 (D.cycle hm hk hn hactive)⟩
        · simp only [hactive, if_false, LayoutM.run_bind, LayoutM.run_modify]
          -- while its parts are measured, the name of the type is active
          have hsizes : (D.during (n.qualifiedName :: m.active)).Sizes (d.partsOf n)
              (d.metricsWithin space k) := fun p hp => ih (D.part hk hn hp)
          have hstore : ∀ m' l, (D.during (n.qualifiedName :: m.active)).inv m' →
              n.isAggregate = true → d.MadeOf space (D.found m') n l →
              (D.during (n.qualifiedName :: m.active)).inv (m'.store n.id l) ∧
                D.grows m' (m'.store n.id l) := fun m' l hm' hagg hl =>
            let ⟨h1, h2⟩ := D.store hm'.1 hn hagg (by simp [hm'.2]) hl
            ⟨⟨h1, hm'.2⟩, h2⟩
          have henter := D.enter hm hn hx hactive
          obtain ⟨⟨h1, _⟩, h2, h3⟩ :=
            Contract.measureWith hsizes hstore (m.enter n.qualifiedName) ⟨henter, rfl⟩
          obtain ⟨h4, h5, h6⟩ := D.leave hm hn hx hactive h1 h2 h3
          exact ⟨⟨h4, D.active h5⟩, h5, h6⟩

end Discipline

/-! ## Requests -/

/-- What can be asked of a layout pass. -/
inductive LayoutRequest
  | metrics (id : TypeId)
  | named (name : String)
  | layout (id : TypeId)
  | bases (id : TypeId)
  | members (id : TypeId) (start : Nat)
  deriving DecidableEq, Repr

namespace LayoutInput

variable (d : LayoutInput) (space : AddressSpace)

/-- The memo after a request. -/
def serve (m : Memo) : LayoutRequest → Memo
  | .metrics id => ((d.metrics space id).run m).2
  | .named name => ((d.metricsNamed space name).run m).2
  | .layout id => ((d.layout? space id).run m).2
  | .bases id => ((d.baseSlots space id).run m).2
  | .members id start => ((d.memberSlots space id start).run m).2

/-- The memos that requests lead to. What was noted may be taken out between requests. -/
inductive Reached : Memo → Prop
  | fresh : Reached {}
  | serve {m : Memo} (h : Reached m) (r : LayoutRequest) : Reached (d.serve space m r)
  | taken {m : Memo} (h : Reached m) : Reached { m with notes := [] }

/-- The memo in which the layout of an aggregate is looked up. -/
def afterLayout (id : TypeId) (m : Memo) : Memo :=
  if m.layouts.contains id then m else ((d.metrics space id).run m).2

/-- The layout of an aggregate is looked up once there is one, and nothing else has a layout. -/
theorem run_layout? (id : TypeId) (m : Memo) :
    (∃ n, d.types.find? id = some n ∧ n.isAggregate = true ∧ (d.layout? space id).run m =
        ((d.afterLayout space id m).layouts.find? id, d.afterLayout space id m)) ∨
      (∀ n, d.types.find? id = some n → n.isAggregate = false) ∧
        (d.layout? space id).run m = (none, m) := by
  cases hn : d.types.find? id with
  | none =>
    simp only [layout?, hn]
    exact .inr ⟨by simp, rfl⟩
  | some n =>
    cases hagg : n.isAggregate with
    | false =>
      simp only [layout?, hn, Option.map_some, Option.getD_some, hagg]
      exact .inr ⟨by simpa using hagg, rfl⟩
    | true =>
      refine .inl ⟨n, rfl, hagg, ?_⟩
      simp only [layout?, hn, Option.map_some, Option.getD_some, hagg, if_true, afterLayout,
        LayoutM.run_bind, LayoutM.run_get]
      by_cases hc : m.layouts.contains id = true
      · simp only [hc]
        rfl
      · simp only [hc]
        rfl

variable {d space}

/-- **A request keeps what measurements keep**, where no name is active. -/
theorem serve_keeps {D : Discipline d space} (henough : ∀ id, D.enough d.depth [] id)
    (r : LayoutRequest) {m : Memo} (hm : (D.during []).inv m) :
    (D.during []).inv (d.serve space m r) ∧ D.grows m (d.serve space m r) := by
  have h : ∀ id, (D.during []).Keeps (d.metrics space id) fun m => D.found m id := fun id =>
    D.metricsWithin (henough id)
  have hrefl : (D.during []).inv m ∧ D.grows m m := ⟨hm, D.refl m⟩
  -- every request is a measurement, or one for each base or member
  cases r with
  | metrics id => exact ⟨(h id m hm).1, (h id m hm).2.1⟩
  | named name =>
    simp only [LayoutInput.serve, metricsNamed]
    split
    · exact ⟨(h _ m hm).1, (h _ m hm).2.1⟩
    · exact hrefl
  | layout id =>
    simp only [LayoutInput.serve]
    rcases d.run_layout? space id m with ⟨n, -, -, hrun⟩ | ⟨-, hrun⟩
    · simp only [hrun, afterLayout]
      split
      · exact hrefl
      · exact ⟨(h id m hm).1, (h id m hm).2.1⟩
    · simpa only [hrun] using hrefl
  | bases id =>
    obtain ⟨h1, h2, -⟩ := Contract.measureBases (d.basesOf id) (fun id _ => h id) m hm
    exact ⟨h1, h2⟩
  | members id start =>
    obtain ⟨h1, h2, -⟩ := Contract.measureMembers (d.membersOf id) (fun _ _ id _ => h id) m hm
    exact ⟨h1, h2⟩

/-- **What a discipline keeps holds of every memo that is reached**, where no name is active. -/
theorem Reached.inv {D : Discipline d space} (hfresh : D.inv {})
    (henough : ∀ id, D.enough d.depth [] id) {m : Memo} (hm : d.Reached space m) :
    (D.during []).inv m := by
  induction hm with
  | fresh => exact ⟨hfresh, rfl⟩
  | @taken m _ ih =>
    have hsame : m.Same { m with notes := [] } := ⟨rfl, rfl, rfl⟩
    exact ((D.during []).same hsame ih).1
  | serve _ r ih => exact (serve_keeps henough r ih).1

/-- A layout that is found is that of an aggregate, and in the memo from then on. -/
theorem Reached.of_layout? {m m' : Memo} {id : TypeId} {l : Layout} (hm : d.Reached space m)
    (hl : (d.layout? space id).run m = (some l, m')) :
    d.Reached space m' ∧ m'.layouts.find? id = some l ∧
      ∃ n, d.types.find? id = some n ∧ n.isAggregate = true := by
  have hserve := hm.serve (.layout id)
  rw [LayoutInput.serve, hl] at hserve
  rcases d.run_layout? space id m with ⟨n, hn, hagg, hrun⟩ | ⟨-, hrun⟩
  · obtain ⟨hfind, rfl⟩ := Prod.mk.inj (hrun.symm.trans hl)
    exact ⟨hserve, hfind, n, hn, hagg⟩
  · rw [hrun] at hl
    cases hl

end LayoutInput

end DeclGraph
