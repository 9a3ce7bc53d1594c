import DeclGraph.Proofs.Memoised

/-!
# What the memo keeps of measured types

The memo is written on the way out of a measurement and read on the way in of others. What it has
of a type is final: it is not written again, and whatever the type has as parts is in the memo
too, unless it is still being measured further up.

* `Memo.Booked`: the entries of a memo belong to types, and have those of their parts below them.
* `bookkeeping`: measuring keeps it, and keeps every entry.
* `LayoutInput.Reached.booked`: it holds of all memos that requests lead to.
* `LayoutInput.Reached.exists_layout`: every aggregate has a layout.
-/

namespace DeclGraph

variable {d : LayoutInput} {space : AddressSpace}

/-- The memo has metrics for a type, unless there is no such type or it is being measured. -/
def Memo.Has (d : LayoutInput) (m : Memo) (id : TypeId) : Prop :=
  ∀ n, d.types.find? id = some n → n.qualifiedName ∉ m.active →
    ∃ x, m.metrics.find? n.qualifiedName = some x

/-- The layout that a memo has for a type is one of that type, which has been measured or is being
measured. -/
structure Memo.Books (d : LayoutInput) (space : AddressSpace) (m : Memo) (id : TypeId)
    (n : DeclaredType) (l : Layout) : Prop where
  type : d.types.find? id = some n
  aggregate : n.isAggregate = true
  measured : n.qualifiedName ∈ m.active ∨ ∃ x, m.metrics.find? n.qualifiedName = some x
  made : d.MadeOf space (fun _ _ => True) n l

/-- The entries of a memo belong to types. An aggregate that has been measured has a layout, and all
its parts have been measured, or else are being measured. -/
structure Memo.Booked (d : LayoutInput) (space : AddressSpace) (m : Memo) : Prop where
  stack : d.Stack m.active
  parts : ∀ {id n x}, d.types.find? id = some n → n.isAggregate = true →
    m.metrics.find? n.qualifiedName = some x → ∀ p ∈ d.partsOf n, m.Has d p
  laid : ∀ {id n x}, d.types.find? id = some n → n.isAggregate = true →
    m.metrics.find? n.qualifiedName = some x → ∃ l, m.layouts.find? id = some l
  layouts : ∀ {id l}, m.layouts.find? id = some l → ∃ n, m.Books d space id n l

/-- A memo has all that an earlier one had, apart from the layouts of types that are being
measured. -/
structure Memo.Carries (d : LayoutInput) (m m' : Memo) : Prop extends m.Extends m' where
  layouts : ∀ id l, m.layouts.find? id = some l →
    (∀ n, d.types.find? id = some n → n.qualifiedName ∉ m.active) → m'.layouts.find? id = some l

/-- The types that members are made of. -/
def LayoutInput.typesOf (d : LayoutInput) (scope : String) (ms : List Member) : List TypeId :=
  ms.filterMap fun m =>
    match (d.memberExtent m scope).value.leaf with
    | .type id => some id
    | _ => none

section Parts

variable {P : TypeId → Metrics → Prop}

theorem exists_metrics_of_bases {es : List BaseEdge} {bs : List MeasuredBase}
    (h : List.Forall₂ (BaseMeasured d P) (es.filter (·.target.isSome)) bs) :
    ∀ p ∈ es.filterMap (·.target), ∃ x, P p x := by
  intro p hp
  obtain ⟨e, he, htarget⟩ := List.mem_filterMap.1 hp
  have hmem : e ∈ es.filter (·.target.isSome) := List.mem_filter.2 ⟨he, by simp [htarget]⟩
  obtain ⟨b, -, hb⟩ := exists_of_forall₂ h.flip e hmem
  obtain rfl : p = b.typeId := Option.some.inj (htarget.symm.trans hb.target)
  exact ⟨_, hb.metrics⟩

theorem exists_metrics_of_members {scope : String} {ms : List Member} {mms : List MeasuredMember}
    (h : List.Forall₂ (MemberMeasured d space P scope) ms mms) :
    ∀ p ∈ d.typesOf scope ms, ∃ x, P p x := by
  intro p hp
  obtain ⟨m, hm, hleaf⟩ := List.mem_filterMap.1 hp
  obtain ⟨mm, -, -, x, hx, -⟩ := exists_of_forall₂ h.flip m hm
  split at hleaf
  · next id hid =>
    obtain rfl := Option.some.inj hleaf
    rw [hid] at hx
    exact ⟨x, hx⟩
  · cases hleaf

/-- A layout that is made of metrics has some for each part. -/
theorem LayoutInput.MadeOf.exists_part {n : DeclaredType} {l : Layout} (h : d.MadeOf space P n l) :
    ∀ p ∈ d.partsOf n, ∃ x, P p x := by
  obtain ⟨bs, ms, hbs, hms, -⟩ := h
  intro p hp
  rcases List.mem_append.1 hp with hp | hp
  · exact exists_metrics_of_bases hbs p hp
  · exact exists_metrics_of_members hms p hp

end Parts

namespace Memo

variable {m m' : Memo} {id : TypeId} {n : DeclaredType}

/-- Leaving a type takes nothing away: that type has metrics now, and the others are as before. -/
theorem Has.leave (h : m.Has d id) (name : String) (x : Metrics) : (m.leave name x).Has d id := by
  intro n hn hidle
  rw [Memo.find?_leave]
  split
  · exact ⟨x, rfl⟩
  · next hne => exact h n hn fun hmem => hidle ((List.mem_erase_of_ne hne).2 hmem)

namespace Booked

theorem enter (h : m.Booked d space) (hn : d.types.find? id = some n)
    (hactive : n.qualifiedName ∉ m.active) : (m.enter n.qualifiedName).Booked d space where
  stack := h.stack.cons hn hactive
  parts hn' hagg hx p hp n' hn'' hactive' :=
    h.parts hn' hagg hx p hp n' hn'' fun hmem => hactive' (List.mem_cons_of_mem _ hmem)
  laid := h.laid
  layouts hl := by
    obtain ⟨n', hn', hagg, hmeasured, hmade⟩ := h.layouts hl
    exact ⟨n', hn', hagg, hmeasured.imp_left (List.mem_cons_of_mem _), hmade⟩

theorem store (h : m.Booked d space) (hn : d.types.find? id = some n) (hagg : n.isAggregate = true)
    (hactive : n.qualifiedName ∈ m.active) {l : Layout}
    (hl : d.MadeOf space (fun _ _ => True) n l) : (m.store id l).Booked d space where
  stack := h.stack
  parts := h.parts
  laid hn' hagg' hx := by
    rw [Memo.store, Table.find?_insert]
    split
    · exact ⟨l, rfl⟩
    · exact h.laid hn' hagg' hx
  layouts := by
    intro id' l' hl'
    rw [Memo.store, Table.find?_insert] at hl'
    split at hl'
    · next hid =>
      obtain rfl := Option.some.inj hl'
      exact ⟨n, hid ▸ hn, hagg, .inl hactive, hl⟩
    · obtain ⟨n', hn', hagg', hmeasured, hmade⟩ := h.layouts hl'
      exact ⟨n', hn', hagg', hmeasured, hmade⟩

/-- The name that is left belongs to one type only, and that type has metrics from now on. -/
theorem leave (h : m'.Booked d space) (hd : d.Distinct) (hn : d.types.find? id = some n)
    (hm : (m.enter n.qualifiedName).Extends m') {x : Metrics}
    (hx : n.isAggregate = true →
      (∀ p ∈ d.partsOf n, m'.Has d p) ∧ ∃ l, m'.layouts.find? id = some l) :
    (m'.leave n.qualifiedName x).Booked d space := by
  have hactive : m'.active = n.qualifiedName :: m.active := hm.active
  have hstack : d.Stack (n.qualifiedName :: m.active) := hactive ▸ h.stack
  refine ⟨hm.active_leave x ▸ hstack.tail, ?_, ?_, ?_⟩
  · intro id' n' y hn' hagg hy p hp
    refine Has.leave ?_ _ x
    rw [Memo.find?_leave] at hy
    split at hy
    · next hname =>
      obtain rfl := hd.name hn' hn hname
      obtain rfl := Option.some.inj (hn'.symm.trans hn)
      exact (hx hagg).1 p hp
    · exact h.parts hn' hagg hy p hp
  · intro id' n' y hn' hagg hy
    rw [Memo.find?_leave] at hy
    split at hy
    · next hname =>
      obtain rfl := hd.name hn' hn hname
      obtain rfl := Option.some.inj (hn'.symm.trans hn)
      exact (hx hagg).2
    · exact h.laid hn' hagg hy
  · intro id' l hl
    obtain ⟨n', hn', hagg, hmeasured, hmade⟩ := h.layouts hl
    refine ⟨n', hn', hagg, ?_, hmade⟩
    -- of what was being measured, only the type that is left has metrics now
    rw [Memo.find?_leave]
    split
    · exact .inr ⟨x, rfl⟩
    · next hne => exact hmeasured.imp_left (List.mem_erase_of_ne hne).2

/-- Once nothing is being measured, the memo has all that a type is made of, however deep. Only
aggregates have parts. -/
theorem has_below (h : m.Booked d space) (hidle : m.active = [])
    (hparts : ∀ {id n}, d.types.find? id = some n → n.isAggregate = false → d.partsOf n = [])
    (hid : m.Has d id) {p : TypeId} (hp : Relation.ReflTransGen d.HasPart id p) : m.Has d p := by
  induction hp with
  | refl => exact hid
  | @tail q p _ hpart ih =>
    cases hn : d.types.find? q with
    | none => simp [LayoutInput.HasPart, LayoutInput.parts, hn] at hpart
    | some n =>
      rw [LayoutInput.HasPart, LayoutInput.parts_of_find? hn] at hpart
      obtain ⟨x, hx⟩ := ih n hn (by simp [hidle])
      cases hagg : n.isAggregate with
      | true => exact h.parts hn hagg hx p hpart
      | false =>
        rw [hparts hn hagg] at hpart
        cases hpart

end Booked

namespace Carries

variable {m₁ m₂ m₃ : Memo}

theorem refl (m : Memo) : m.Carries d m := ⟨.refl m, fun _ _ hl _ => hl⟩

theorem trans (h₁ : m₁.Carries d m₂) (h₂ : m₂.Carries d m₃) : m₁.Carries d m₃ where
  toExtends := h₁.toExtends.trans h₂.toExtends
  layouts id l hl hidle :=
    h₂.layouts id l (h₁.layouts id l hl hidle) (by rw [h₁.active]; exact hidle)

/-- A layout that is stored replaces none but that of a type which is being measured. -/
theorem store (hn : d.types.find? id = some n) (hactive : n.qualifiedName ∈ m.active) (l : Layout) :
    m.Carries d (m.store id l) where
  toExtends := ⟨rfl, fun _ _ hx => hx⟩
  layouts id' l' hl' hidle := by
    rw [Memo.store, Table.find?_insert, if_neg]
    · exact hl'
    · rintro rfl
      exact hidle n hn hactive

/-- A type that is entered has no layout yet, so none of its is replaced. -/
theorem leave (h : (m.enter n.qualifiedName).Carries d m') (hm : m.Booked d space)
    (hname : m.metrics.find? n.qualifiedName = none) (hactive : n.qualifiedName ∉ m.active)
    (x : Metrics) : m.Carries d (m'.leave n.qualifiedName x) where
  toExtends := h.toExtends.leave hname x
  layouts id' l hl hidle := by
    refine h.layouts id' l hl fun n' hn' hmem => ?_
    rcases List.mem_cons.1 hmem with hsame | hmem
    · obtain ⟨n'', hn'', -, hmeasured, -⟩ := hm.layouts hl
      obtain rfl := Option.some.inj (hn'.symm.trans hn'')
      rw [hsame, hname] at hmeasured
      rcases hmeasured with hmem | ⟨y, hy⟩
      · exact hactive hmem
      · cases hy
    · exact hidle n' hn' hmem

end Carries

end Memo

/-- **Measuring keeps the entries of memos**, and what they say of each other. -/
def bookkeeping (space : AddressSpace) (hd : d.Distinct) : Discipline d space where
  inv m := m.Booked d space
  grows := Memo.Carries d
  found m id x := ∀ n, d.types.find? id = some n → n.qualifiedName ∉ m.active →
    m.metrics.find? n.qualifiedName = some x
  refl := Memo.Carries.refl
  trans := Memo.Carries.trans
  same := by
    intro m m' hsame h
    refine ⟨⟨?_, ?_, ?_, ?_⟩, hsame.extends, ?_⟩
    · rw [hsame.active]
      exact h.stack
    · simp only [Memo.Has, hsame.metrics, hsame.active]
      exact h.parts
    · rw [hsame.metrics, hsame.layouts]
      exact h.laid
    · rw [hsame.layouts]
      intro id l hl
      obtain ⟨n, hn, hagg, hmeasured, hmade⟩ := h.layouts hl
      exact ⟨n, hn, hagg, by rwa [hsame.active, hsame.metrics], hmade⟩
    · rw [hsame.layouts]
      exact fun _ _ hl _ => hl
  keep := by
    intro m m' id x hgrows h n hn hactive
    rw [hgrows.active] at hactive
    exact hgrows.metrics _ _ (h n hn hactive)
  enough k names _ := d.types.size < k + names.length
  active h := h.active
  part h _ _ := by
    rw [List.length_cons]
    omega
  spent h hdepth := by
    have := h.stack.length_le
    omega
  unknown hn n hn' := by simp [hn] at hn'
  known _ hn hx n' hn' _ := by
    obtain rfl := Option.some.inj (hn.symm.trans hn')
    exact hx
  cycle _ _ hn hactive n' hn' hactive' := by
    obtain rfl := Option.some.inj (hn.symm.trans hn')
    exact absurd hactive hactive'
  enter h hn _ hactive := h.enter hn hactive
  store h hn hagg hactive hl := by
    rw [hd.id hn]
    exact ⟨h.store hn hagg hactive (hl.mono fun _ _ _ => trivial), .store hn hactive _⟩
  leave := by
    intro m m' id n x hm hn hname hactive hm' hgrows hx
    have hmeasured : n.isAggregate = true →
        (∀ p ∈ d.partsOf n, m'.Has d p) ∧ ∃ l, m'.layouts.find? id = some l := by
      intro hagg
      cases hx with
      | primitive hk => simp [DeclaredType.isAggregate, hk, Kind.isAggregate] at hagg
      | unsized hagg' => simp [hagg'] at hagg
      | aggregate _ hmade hfind =>
        rw [hd.id hn] at hfind
        refine ⟨fun p hp n' hn' hactive' => ?_, _, hfind⟩
        obtain ⟨y, hy⟩ := hmade.exists_part p hp
        exact ⟨y, hy n' hn' hactive'⟩
    refine ⟨hm'.leave hd hn hgrows.toExtends hmeasured, hgrows.leave hm hname hactive x, ?_⟩
    intro n' hn' _
    obtain rfl := Option.some.inj (hn.symm.trans hn')
    rw [Memo.find?_leave, if_pos rfl]

namespace LayoutInput

variable {m : Memo} {id : TypeId} {n : DeclaredType}

theorem Reached.booked (hd : d.Distinct) (hm : d.Reached space m) :
    m.Booked d space ∧ m.active = [] := by
  have hfresh : ({} : Memo).Booked d space :=
    ⟨.nil, by simp [Table.find?], by simp [Table.find?], by simp [Table.find?]⟩
  have henough : ∀ id, (bookkeeping space hd).enough d.depth [] id := fun _ => Nat.lt_succ_self _
  exact Reached.inv hfresh henough hm

/-- What is found for a type is in the memo afterwards. -/
theorem Reached.find?_metrics (hd : d.Distinct) (hm : d.Reached space m)
    (hn : d.types.find? id = some n) :
    ((d.metrics space id).run m).2.metrics.find? n.qualifiedName =
      some ((d.metrics space id).run m).1 := by
  have hkeeps : ((bookkeeping space hd).during []).Keeps (d.metrics space id)
      fun m => (bookkeeping space hd).found m id :=
    (bookkeeping space hd).metricsWithin (Nat.lt_succ_self _)
  obtain ⟨⟨-, hidle⟩, -, hfound⟩ := hkeeps m (hm.booked hd)
  refine hfound n hn ?_
  rw [hidle]
  exact List.not_mem_nil

/-- **Every aggregate has a layout**, after any requests, cycles or not. -/
theorem Reached.exists_layout (hd : d.Distinct) (hm : d.Reached space m)
    (hn : d.types.find? id = some n) (hagg : n.isAggregate = true) :
    ∃ l m', (d.layout? space id).run m = (some l, m') ∧ m'.layouts.find? id = some l ∧
      m'.Books d space id n l := by
  have hafter : d.Reached space ((d.layout? space id).run m).2 := hm.serve (.layout id)
  have hbooked := (hafter.booked hd).1
  rcases d.run_layout? space id m with ⟨n', hn', -, hrun⟩ | ⟨hnone, -⟩
  · obtain ⟨l, hl⟩ : ∃ l, (d.afterLayout space id m).layouts.find? id = some l := by
      unfold afterLayout
      by_cases hc : m.layouts.contains id = true
      · rw [if_pos hc]
        exact Option.isSome_iff_exists.1 hc
      · rw [if_neg hc]
        have hmeasured : d.Reached space ((d.metrics space id).run m).2 := hm.serve (.metrics id)
        exact (hmeasured.booked hd).1.laid hn hagg (hm.find?_metrics hd hn)
    rw [hrun] at hbooked
    obtain ⟨n'', hbooks⟩ := hbooked.layouts hl
    obtain rfl := Option.some.inj (hn.symm.trans hbooks.type)
    exact ⟨l, _, by rw [hrun, hl], hl, hbooks⟩
  · rw [hnone n hn] at hagg
    cases hagg

end LayoutInput

theorem Store.Sound.mem_aggregates_iff {s : Store} (h : s.Sound) {n : DeclaredType} :
    n ∈ s.aggregates ↔ s.types.find? n.id = some n ∧ n.isAggregate = true := by
  rw [Store.aggregates, List.mem_filter]
  refine and_congr_left fun _ => ⟨Table.find?_of_mem_values h.types_nodup h.typeId, ?_⟩
  exact Table.mem_values_of_find?

/-- Layout reads the bases and members of aggregates only. -/
theorem Store.Sound.layout_parts_eq_nil {s : Store} (h : s.Sound) {id : TypeId} {n : DeclaredType}
    (hn : s.types.find? id = some n) (hagg : n.isAggregate = false) :
    s.layoutInput.basesOf id = [] ∧ s.layoutInput.membersOf id = [] := by
  have hnone : id ∉ s.aggregates.map (·.id) := by
    intro hmem
    obtain ⟨n', hn', rfl⟩ := List.mem_map.1 hmem
    obtain ⟨hfind, hagg'⟩ := h.mem_aggregates_iff.1 hn'
    obtain rfl := Option.some.inj (hfind.symm.trans hn)
    rw [hagg] at hagg'
    cases hagg'
  have hlist : ∀ {α : Type} (f : TypeId → List α), (Table.ofPairs
      (((s.aggregates.map (·.id)).filter s.types.contains).map fun id => (id, f id))).list id =
        [] := by
    intro α f
    have hf : ∀ p ∈ ((s.aggregates.map (·.id)).filter s.types.contains).map fun id => (id, f id),
        some (f p.1) = some p.2 := by
      intro p hp
      obtain ⟨id, -, rfl⟩ := List.mem_map.1 hp
      rfl
    rw [Table.list, Table.find?_ofPairs (f := fun id => some (f id)) hf, if_neg]
    · rfl
    · rw [List.map_map]
      intro hmem
      obtain ⟨_, hkey, rfl⟩ := List.mem_map.1 hmem
      exact hnone (List.mem_filter.1 hkey).1
  exact ⟨hlist s.basesOf, hlist s.membersOf⟩

theorem Store.Sound.partsOf_eq_nil {s : Store} (h : s.Sound) {id : TypeId} {n : DeclaredType}
    (hn : s.layoutInput.types.find? id = some n) (hagg : n.isAggregate = false) :
    s.layoutInput.partsOf n = [] := by
  obtain ⟨hbases, hmembers⟩ := h.layout_parts_eq_nil hn hagg
  rw [LayoutInput.partsOf, h.typeId _ (Table.mem_entries_of_find? hn), hbases, hmembers]
  rfl

end DeclGraph
