import Mathlib.Data.List.Perm.Subperm
import Mathlib.Logic.Relation
import DeclGraph.Proofs.Measuring

/-!
# Plain layouts

The layout of a type as a recursion through its parts, with no memo and no names that are being
measured. It is there for types that do not contain themselves, however deep.

* `LayoutInput.Acyclic`: a type and what it is made of have no cycle among them.
* `LayoutInput.acc_of_acyclic`: for these types the recursion through parts ends.
* `LayoutInput.plainMetrics`, `LayoutInput.plainLayout?`: the recursion.
* `LayoutInput.MadeOf.eq_plain`: a layout made of plain metrics is the plain layout.
-/

namespace DeclGraph

namespace LayoutInput

variable (d : LayoutInput) (space : AddressSpace)

/-- The types that a type has as parts. -/
def parts (id : TypeId) : List TypeId :=
  match d.types.find? id with
  | none => []
  | some n => d.partsOf n

/-- The type `p` is a part of the type `id`. -/
def HasPart (id p : TypeId) : Prop := p ∈ d.parts id

/-- No type that `id` is made of contains itself. -/
def Acyclic (id : TypeId) : Prop :=
  ∀ p, Relation.ReflTransGen d.HasPart id p → ¬Relation.TransGen d.HasPart p p

variable {d} {id p : TypeId} {n : DeclaredType}

theorem parts_of_find? (h : d.types.find? id = some n) : d.parts id = d.partsOf n := by
  simp only [parts, h]

theorem hasPart_of_find? (h : d.types.find? id = some n) (hp : p ∈ d.partsOf n) :
    d.HasPart id p := by
  rwa [HasPart, parts_of_find? h]

theorem HasPart.mem_keys (h : d.HasPart id p) : id ∈ d.types.keys := by
  unfold HasPart parts at h
  cases hn : d.types.find? id with
  | none => simp [hn] at h
  | some n => exact Table.mem_keys_of_find? hn

theorem Acyclic.part (h : d.Acyclic id) (hp : d.HasPart id p) : d.Acyclic p := fun q hq =>
  h q (.head hp hq)

theorem Acyclic.irrefl (h : d.Acyclic id) : ¬Relation.TransGen d.HasPart id id := h id .refl

theorem acyclic_of_parts (h : ∀ p ∈ d.parts id, d.Acyclic p) : d.Acyclic id := by
  intro p hp hcycle
  rcases Relation.ReflTransGen.cases_head hp with rfl | ⟨q, hq, hrest⟩
  · -- a cycle through `id` goes through one of its parts as well
    obtain ⟨q, hq, hback⟩ := Relation.TransGen.head'_iff.1 hcycle
    exact (h q hq).irrefl (Relation.TransGen.tail' hback hq)
  · exact h q hq p hrest hcycle

/-- The types above a type, each one once. There are at most as many as there are types, since each
of them has a part. -/
structure Above (d : LayoutInput) (path : List TypeId) (id : TypeId) : Prop where
  nodup : path.Nodup
  above : ∀ q ∈ path, Relation.TransGen d.HasPart q id

theorem Above.cons {path : List TypeId} (h : Above d path id) (hid : d.Acyclic id)
    (hp : d.HasPart id p) : Above d (id :: path) p where
  nodup := List.nodup_cons.2 ⟨fun hmem => hid.irrefl (h.above id hmem), h.nodup⟩
  above q hq := by
    rcases List.mem_cons.1 hq with rfl | hq
    · exact .single hp
    · exact (h.above q hq).tail hp

theorem Above.length_le {path : List TypeId} (h : Above d path id) :
    path.length ≤ d.types.size := by
  have hsub : path ⊆ d.types.keys := by
    intro q hq
    obtain ⟨p, hp, -⟩ := Relation.TransGen.head'_iff.1 (h.above q hq)
    exact hp.mem_keys
  have hle := (List.subperm_of_subset h.nodup hsub).length_le
  simpa only [Table.keys, Table.size, List.length_map] using hle

/-- **The recursion through the parts of an acyclic type ends.** -/
theorem acc_of_acyclic (h : d.Acyclic id) : Acc (fun p q => d.HasPart q p) id := by
  -- a path down to a type has each type above it once, so it is no longer than the table
  have key : ∀ k path id, d.Acyclic id → Above d path id → d.types.size < k + path.length →
      Acc (fun p q => d.HasPart q p) id := by
    intro k
    induction k with
    | zero => intro path id _ hpath hk; have := hpath.length_le; omega
    | succ k ih =>
      intro path id hid hpath hk
      refine ⟨_, fun p hp => ih (id :: path) p (hid.part hp) (hpath.cons hid hp) ?_⟩
      rw [List.length_cons]
      omega
  exact key (d.types.size + 1) [] id h ⟨.nil, by simp⟩ (by simp)

/-! ## The recursion -/

section Plain

variable (d) (f : TypeId → Metrics)

/-- The metrics of a leaf, if `f` gives those of types. -/
def plainLeaf : Leaf → Metrics
  | .pointer => .pointer
  | .primitive p => .ofPrimitive p
  | .type id => f id
  | .unsized => .fallback

/-- The resolved ones among bases. -/
def plainBases (es : List BaseEdge) : List MeasuredBase :=
  es.filterMap fun e => e.target.map fun id =>
    ⟨id, ((d.types.find? id).map (·.qualifiedName)).getD e.typeString, f id⟩

/-- A member whose type is looked up in `scope`. -/
def plainMember (scope : String) (m : Member) : MeasuredMember :=
  let e := (d.memberExtent m scope).value
  ⟨m, (e.metrics space (plainLeaf f e.leaf)).withRequested m.alignment⟩

/-- The layout of an aggregate. -/
def plainLayoutOf (n : DeclaredType) : Layout :=
  n.layout space (d.plainBases f (d.basesOf n.id))
    ((d.membersOf n.id).map (d.plainMember space f n.qualifiedName))

/-- The metrics of a type. -/
def plainMetricsOf (n : DeclaredType) : Metrics :=
  match n.kind with
  | .primitive => (Metrics.ofPrimitiveName n.baseName).withRequested n.alignment
  | .enum | .unknown => Metrics.fallback.withRequested n.alignment
  | .struct | .class_ | .union =>
    let l := d.plainLayoutOf space f n
    .make l.size l.alignment

end Plain

instance : WellFoundedRelation {id // d.Acyclic id} where
  rel p q := d.HasPart q.1 p.1
  wf := ⟨fun id => InvImage.accessible Subtype.val (acc_of_acyclic id.2)⟩

variable (d)

/-- The metrics of an acyclic type, by recursion through its parts. -/
def plainMetrics (id : TypeId) (h : d.Acyclic id) : Metrics :=
  match d.types.find? id with
  | none => .fallback
  | some n =>
    -- Only parts are asked for, and all of them are acyclic again.
    d.plainMetricsOf space
      (fun p => if hp : p ∈ d.parts id then plainMetrics p (h.part hp) else .fallback) n
termination_by (⟨id, h⟩ : {id // d.Acyclic id})
decreasing_by exact hp

/-- The metrics of the parts of an acyclic type. -/
def plainParts (id : TypeId) (h : d.Acyclic id) (p : TypeId) : Metrics :=
  if hp : p ∈ d.parts id then d.plainMetrics space p (h.part hp) else .fallback

/-- The layout of an acyclic type, if it is an aggregate. -/
def plainLayout? (id : TypeId) (h : d.Acyclic id) : Option Layout :=
  match d.types.find? id with
  | none => none
  | some n =>
    if n.isAggregate then some (d.plainLayoutOf space (d.plainParts space id h) n) else none

variable {d space} {P : TypeId → Metrics → Prop} {f : TypeId → Metrics}

theorem plainMetrics_of_find? (hn : d.types.find? id = some n) (h : d.Acyclic id) :
    d.plainMetrics space id h = d.plainMetricsOf space (d.plainParts space id h) n := by
  rw [plainMetrics, hn]
  rfl

theorem plainMetrics_of_none (hn : d.types.find? id = none) (h : d.Acyclic id) :
    d.plainMetrics space id h = .fallback := by
  rw [plainMetrics, hn]

theorem plainParts_of_hasPart (h : d.Acyclic id) (hp : d.HasPart id p) :
    d.plainParts space id h p = d.plainMetrics space p (h.part hp) := dif_pos hp

end LayoutInput

/-! ## What is made of plain metrics -/

section

variable {d : LayoutInput} {space : AddressSpace} {P : TypeId → Metrics → Prop}
  {f : TypeId → Metrics}

theorem Leaf.Measured.eq_plain {l : Leaf} {x : Metrics} (h : l.Measured P x)
    (hf : ∀ id x, l = .type id → P id x → x = f id) : x = LayoutInput.plainLeaf f l := by
  cases l with
  | type id => exact hf id x rfl h
  | _ => exact h

theorem MemberMeasured.eq_plain {scope : String} {m : Member} {mm : MeasuredMember}
    (h : MemberMeasured d space P scope m mm)
    (hf : ∀ id x, (d.memberExtent m scope).value.leaf = .type id → P id x → x = f id) :
    mm = d.plainMember space f scope m := by
  obtain ⟨rfl, x, hx, hmetrics⟩ := h
  rw [hx.eq_plain hf] at hmetrics
  obtain ⟨member, metrics⟩ := mm
  exact congrArg _ hmetrics

theorem eq_plainBases {es : List BaseEdge} {bs : List MeasuredBase}
    (h : List.Forall₂ (BaseMeasured d P) (es.filter (·.target.isSome)) bs)
    (hf : ∀ id ∈ es.filterMap (·.target), ∀ x, P id x → x = f id) : bs = d.plainBases f es := by
  induction es generalizing bs with
  | nil => cases h; rfl
  | cons e es ih =>
    cases he : e.target with
    | none =>
      simp only [List.filter_cons, he, Option.isSome_none, Bool.false_eq_true, if_false] at h
      simp only [List.filterMap_cons, he] at hf
      simpa only [LayoutInput.plainBases, List.filterMap_cons, he, Option.map_none] using ih h hf
    | some id =>
      simp only [List.filter_cons, he, Option.isSome_some, if_true] at h
      simp only [List.filterMap_cons, he, List.forall_mem_cons] at hf
      cases h with
      | @cons _ b _ bs hb hbs =>
        obtain ⟨typeId, name, metrics⟩ := b
        obtain ⟨htarget, hname, hmetrics⟩ := hb
        obtain rfl : id = typeId := Option.some.inj (he.symm.trans htarget)
        simp only at hname hmetrics
        simp only [LayoutInput.plainBases, List.filterMap_cons, he, Option.map_some]
        rw [hname, hf.1 _ hmetrics, ih hbs hf.2]
        rfl

/-- **A layout made of plain metrics is the plain layout.** -/
theorem LayoutInput.MadeOf.eq_plain {n : DeclaredType} {l : Layout} (h : d.MadeOf space P n l)
    (hf : ∀ p ∈ d.partsOf n, ∀ x, P p x → x = f p) : l = d.plainLayoutOf space f n := by
  obtain ⟨bs, ms, hbs, hms, rfl⟩ := h
  have hbases : bs = d.plainBases f (d.basesOf n.id) :=
    eq_plainBases hbs fun id hid => hf id (List.mem_append_left _ hid)
  have hmembers : ms = (d.membersOf n.id).map (d.plainMember space f n.qualifiedName) := by
    have hparts : ∀ m ∈ d.membersOf n.id, ∀ id,
        (d.memberExtent m n.qualifiedName).value.leaf = .type id → id ∈ d.partsOf n :=
      fun m hm id hid =>
        List.mem_append_right _ (List.mem_filterMap.2 ⟨m, hm, by rw [hid]⟩)
    clear hbs
    generalize d.membersOf n.id = members at hms hparts
    induction hms with
    | nil => rfl
    | cons hm _ ih =>
      rw [List.forall_mem_cons] at hparts
      rw [List.map_cons, hm.eq_plain fun id x hid => hf id (hparts.1 id hid) x, ih hparts.2]
  rw [plainLayoutOf, hbases, hmembers]

theorem LayoutInput.Measured.eq_plain {layouts : Table TypeId Layout} {n : DeclaredType}
    {x : Metrics} (h : d.Measured space P layouts n x)
    (hf : ∀ p ∈ d.partsOf n, ∀ x, P p x → x = f p) : x = d.plainMetricsOf space f n := by
  unfold plainMetricsOf
  cases h with
  | primitive hk => simp only [hk]
  | unsized hagg hk =>
    rw [DeclaredType.isAggregate] at hagg
    cases hk' : n.kind <;> simp_all [Kind.isAggregate]
  | aggregate hagg hl =>
    rw [DeclaredType.isAggregate] at hagg
    obtain rfl := hl.eq_plain hf
    cases hk' : n.kind <;> simp_all [Kind.isAggregate]

end

end DeclGraph
