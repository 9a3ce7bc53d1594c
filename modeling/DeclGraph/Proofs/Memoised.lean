import DeclGraph.Proofs.PlainLayout
import DeclGraph.Proofs.StructLayout

/-!
# Memoised layouts are plain

While types are measured, a type that is met again takes the fallback, and whatever was measured
meanwhile stays in the memo. For a type that does not contain itself none of this shows: no type
that is being measured is a part of it, so its own measurement never meets a guard, and nothing
that was found for it came from a fallback.

* `Memo.Faithful`: what a memo has of acyclic types is plain.
* `faithfulness`: measuring keeps it, from a depth that is enough for the names that are active.
* `memoised_eq_plain`: metrics and layouts of acyclic types are plain, whatever was requested
  before.
-/

namespace DeclGraph

/-- Types are filed under their identities, and no two have one name. -/
structure LayoutInput.Distinct (d : LayoutInput) : Prop where
  id : ∀ {id n}, d.types.find? id = some n → n.id = id
  name : ∀ {id id' n n'}, d.types.find? id = some n → d.types.find? id' = some n' →
    n.qualifiedName = n'.qualifiedName → id = id'

variable {d : LayoutInput} {space : AddressSpace}

/-- Names that can be active together: names of types, each once. -/
structure LayoutInput.Stack (d : LayoutInput) (names : List String) : Prop where
  nodup : names.Nodup
  named : ∀ name ∈ names, ∃ id n, d.types.find? id = some n ∧ n.qualifiedName = name

namespace LayoutInput.Stack

variable {names : List String} {id : TypeId} {n : DeclaredType}

theorem nil : d.Stack [] := ⟨.nil, by simp⟩

theorem cons (h : d.Stack names) (hn : d.types.find? id = some n)
    (hactive : n.qualifiedName ∉ names) : d.Stack (n.qualifiedName :: names) where
  nodup := List.nodup_cons.2 ⟨hactive, h.nodup⟩
  named name hname := by
    rcases List.mem_cons.1 hname with rfl | hname
    · exact ⟨id, n, hn, rfl⟩
    · exact h.named name hname

theorem tail {name : String} (h : d.Stack (name :: names)) : d.Stack names :=
  ⟨(List.nodup_cons.1 h.nodup).2, fun other hother => h.named other (List.mem_cons_of_mem _ hother)⟩

/-- There are no more of them than types. -/
theorem length_le (h : d.Stack names) : names.length ≤ d.types.size := by
  have hsub : names ⊆ d.types.entries.map fun e => e.2.qualifiedName := by
    intro name hname
    obtain ⟨id, n, hn, rfl⟩ := h.named name hname
    exact List.mem_map.2 ⟨(id, n), Table.mem_entries_of_find? hn, rfl⟩
  have hle := (List.subperm_of_subset h.nodup hsub).length_le
  rwa [List.length_map] at hle

end LayoutInput.Stack

/-- What a memo has of acyclic types is plain. The names of the types that are being measured are
distinct, and an aggregate with metrics has a layout. -/
structure Memo.Faithful (d : LayoutInput) (space : AddressSpace) (m : Memo) : Prop where
  nodup : m.active.Nodup
  active : ∀ name ∈ m.active, ∃ id n, d.types.find? id = some n ∧ n.qualifiedName = name
  metrics : ∀ {id n x}, d.types.find? id = some n → m.metrics.find? n.qualifiedName = some x →
    ∀ h : d.Acyclic id, x = d.plainMetrics space id h
  layouts : ∀ {id l}, m.layouts.find? id = some l →
    ∀ h : d.Acyclic id, d.plainLayout? space id h = some l
  laid : ∀ {id n x}, d.types.find? id = some n → n.isAggregate = true →
    m.metrics.find? n.qualifiedName = some x → m.layouts.contains id = true

/-- The metrics that a measurement finds are plain, and if the type was not being measured already
then they are in the memo. -/
structure Memo.Learnt (d : LayoutInput) (space : AddressSpace) (m : Memo) (id : TypeId)
    (x : Metrics) : Prop where
  plain : ∀ h : d.Acyclic id, x = d.plainMetrics space id h
  known : ∀ n, d.types.find? id = some n → n.qualifiedName ∉ m.active →
    m.metrics.find? n.qualifiedName = some x

theorem Memo.Learnt.eq_plainParts {m : Memo} {id : TypeId} {n : DeclaredType}
    (hn : d.types.find? id = some n) (h : d.Acyclic id) : ∀ p ∈ d.partsOf n, ∀ x,
      m.Learnt d space p x → x = d.plainParts space id h p := by
  intro p hp x hx
  rw [LayoutInput.plainParts_of_hasPart h (LayoutInput.hasPart_of_find? hn hp)]
  exact hx.plain _

/-- A type is measured below the types whose names are active, at a depth that is enough for all
types that are not. -/
structure Below (d : LayoutInput) (depth : Nat) (names : List String) (id : TypeId) : Prop where
  depth : d.types.size < depth + names.length
  above : ∀ name ∈ names, ∃ q n, d.types.find? q = some n ∧ n.qualifiedName = name ∧
    Relation.TransGen d.HasPart q id

theorem Below.part {k : Nat} {names : List String} {id : TypeId} {n : DeclaredType} {p : TypeId}
    (h : Below d (k + 1) names id) (hn : d.types.find? id = some n) (hp : p ∈ d.partsOf n) :
    Below d k (n.qualifiedName :: names) p where
  depth := by
    have := h.depth
    rw [List.length_cons]
    omega
  above name hname := by
    have hpart := LayoutInput.hasPart_of_find? hn hp
    rcases List.mem_cons.1 hname with rfl | hname
    · exact ⟨id, n, hn, rfl, .single hpart⟩
    · obtain ⟨q, n', hq, hn', habove⟩ := h.above name hname
      exact ⟨q, n', hq, hn', habove.tail hpart⟩

/-- A depth that is enough is never used up, since no more names are active than there are types. -/
theorem LayoutInput.Stack.not_below {names : List String} {id : TypeId} (h : d.Stack names) :
    ¬Below d 0 names id := by
  intro hbelow
  have h1 := h.length_le
  have h2 := hbelow.depth
  omega

namespace Memo.Faithful

variable {m m' : Memo} {id : TypeId} {n : DeclaredType}

/-- The active names are names of types, each once. -/
theorem stack (h : m.Faithful d space) : d.Stack m.active := ⟨h.nodup, h.active⟩

theorem enter (h : m.Faithful d space) (hn : d.types.find? id = some n)
    (hactive : n.qualifiedName ∉ m.active) : (m.enter n.qualifiedName).Faithful d space where
  nodup := (h.stack.cons hn hactive).nodup
  active := (h.stack.cons hn hactive).named
  metrics := h.metrics
  layouts := h.layouts
  laid := h.laid

theorem store (h : m.Faithful d space) {l : Layout}
    (hl : ∀ h : d.Acyclic id, d.plainLayout? space id h = some l) :
    (m.store id l).Faithful d space where
  nodup := h.nodup
  active := h.active
  metrics := h.metrics
  layouts := by
    intro id' l' hl' h'
    rw [Memo.store, Table.find?_insert] at hl'
    split at hl'
    · subst id'
      obtain rfl := Option.some.inj hl'
      exact hl h'
    · exact h.layouts hl' h'
  laid := by
    intro id' n x hn hagg hx
    have hcontains := h.laid hn hagg hx
    rw [Table.contains] at hcontains ⊢
    rw [Memo.store, Table.find?_insert]
    split
    · rfl
    · exact hcontains

/-- The name that is left belongs to one type only. -/
theorem leave (h : m'.Faithful d space) (hd : d.Distinct) (hn : d.types.find? id = some n)
    (hm : (m.enter n.qualifiedName).Extends m') {x : Metrics}
    (hx : ∀ h : d.Acyclic id, x = d.plainMetrics space id h)
    (hlaid : n.isAggregate = true → m'.layouts.contains id = true) :
    (m'.leave n.qualifiedName x).Faithful d space := by
  have hactive : m'.active = n.qualifiedName :: m.active := hm.active
  have hleft : (m'.leave n.qualifiedName x).active = m.active := hm.active_leave x
  -- what is found under the name that is left is `x`, and all else is as in `m'`
  refine ⟨?_, ?_, ?_, h.layouts, ?_⟩
  · rw [hleft]
    exact (List.nodup_cons.1 (hactive ▸ h.nodup)).2
  · rw [hleft]
    exact fun name hname => h.active name (by simp [hactive, hname])
  · intro id' n' y hn' hy hacyclic
    rw [Memo.find?_leave] at hy
    split at hy
    · obtain rfl := hd.name hn' hn ‹_›
      obtain rfl := Option.some.inj hy
      exact hx hacyclic
    · exact h.metrics hn' hy hacyclic
  · intro id' n' y hn' hagg hy
    rw [Memo.find?_leave] at hy
    split at hy
    · obtain rfl := hd.name hn' hn ‹_›
      obtain rfl := Option.some.inj (hn'.symm.trans hn)
      exact hlaid hagg
    · exact h.laid hn' hagg hy

end Memo.Faithful

/-- **Measuring keeps memos faithful**, whatever else is being measured. -/
def faithfulness (space : AddressSpace) (hd : d.Distinct) : Discipline d space where
  inv m := m.Faithful d space
  grows := Memo.Extends
  found m := m.Learnt d space
  refl := Memo.Extends.refl
  trans := Memo.Extends.trans
  same := by
    intro m m' hsame h
    refine ⟨⟨?_, ?_, ?_, ?_, ?_⟩, hsame.extends⟩
    · rw [hsame.active]; exact h.nodup
    · rw [hsame.active]; exact h.active
    · rw [hsame.metrics]; exact h.metrics
    · rw [hsame.layouts]; exact h.layouts
    · rw [hsame.metrics, hsame.layouts]; exact h.laid
  keep := by
    intro m m' id x hgrows h
    refine ⟨h.plain, fun n hn hactive => hgrows.metrics _ _ (h.known n hn ?_)⟩
    rwa [hgrows.active] at hactive
  enough := Below d
  active h := h.active
  part h hn hp := h.part hn hp
  spent h hbelow := absurd hbelow h.stack.not_below
  unknown hn :=
    ⟨fun h => (LayoutInput.plainMetrics_of_none hn h).symm, fun n hn' => by simp [hn] at hn'⟩
  known := by
    intro m id n x h hn hx
    refine ⟨h.metrics hn hx, fun n' hn' _ => ?_⟩
    obtain rfl := Option.some.inj (hn.symm.trans hn')
    exact hx
  cycle := by
    intro m k id n h hbelow hn hactive
    refine ⟨fun hacyclic => ?_, fun n' hn' hactive' => ?_⟩
    -- the name is that of a type above `id`, so `id` is above itself
    · obtain ⟨q, n', hq, hname, habove⟩ := hbelow.above _ hactive
      obtain rfl := hd.name hq hn hname
      exact absurd habove hacyclic.irrefl
    · obtain rfl := Option.some.inj (hn.symm.trans hn')
      exact absurd hactive hactive'
  enter h hn _ hactive := h.enter hn hactive
  store := by
    intro m id n l h hn hagg _ hl
    have hplain : ∀ h : d.Acyclic id, d.plainLayout? space id h = some l := by
      intro hacyclic
      have hlayout := hl.eq_plain (Memo.Learnt.eq_plainParts hn hacyclic)
      simp only [LayoutInput.plainLayout?, hn, hagg, if_true, hlayout]
    rw [hd.id hn]
    exact ⟨h.store hplain, rfl, fun _ _ hx => hx⟩
  leave := by
    intro m m' id n x _ hn hname hactive hm' hgrows hx
    have hplain : ∀ h : d.Acyclic id, x = d.plainMetrics space id h := by
      intro hacyclic
      rw [LayoutInput.plainMetrics_of_find? hn]
      exact hx.eq_plain (Memo.Learnt.eq_plainParts hn hacyclic)
    have hlaid : n.isAggregate = true → m'.layouts.contains id = true := by
      intro hagg
      rw [← hd.id hn]
      exact hx.contains_layouts hagg
    refine ⟨hm'.leave hd hn hgrows hplain hlaid, hgrows.leave hname x, hplain, fun n' hn' _ => ?_⟩
    obtain rfl := Option.some.inj (hn.symm.trans hn')
    rw [Memo.find?_leave, if_pos rfl]

namespace LayoutInput

variable {m : Memo} {id : TypeId}

theorem below_nil (id : TypeId) : Below d d.depth [] id := ⟨Nat.lt_succ_self _, by simp⟩

theorem Reached.faithful (hd : d.Distinct) (hm : d.Reached space m) :
    m.Faithful d space ∧ m.active = [] := by
  have hfresh : ({} : Memo).Faithful d space :=
    ⟨.nil, by simp, by simp [Table.find?], by simp [Table.find?], by simp [Table.find?]⟩
  have hbelow : ∀ id, (faithfulness space hd).enough d.depth [] id := below_nil
  exact Reached.inv hfresh hbelow hm

/-- What is found for a type, after any requests. -/
theorem Reached.learnt (hd : d.Distinct) (hm : d.Reached space m) (id : TypeId) :
    ((d.metrics space id).run m).2.Learnt d space id ((d.metrics space id).run m).1 :=
  ((faithfulness space hd).metricsWithin (below_nil id) m (hm.faithful hd)).2.2

/-- The layout of an acyclic type is plain, after any requests. -/
theorem Reached.layout?_eq_plain (hd : d.Distinct) (hm : d.Reached space m) (h : d.Acyclic id) :
    ((d.layout? space id).run m).1 = d.plainLayout? space id h := by
  have hafter : ((d.layout? space id).run m).2.Faithful d space ∧
      ((d.layout? space id).run m).2.active = [] := (hm.serve (.layout id)).faithful hd
  rcases d.run_layout? space id m with ⟨n, hn, hagg, hrun⟩ | ⟨hnone, hrun⟩
  · rw [hrun] at hafter ⊢
    have hcontains : (d.afterLayout space id m).layouts.contains id = true := by
      by_cases hc : m.layouts.contains id = true
      · rwa [afterLayout, if_pos hc]
      · rw [afterLayout, if_neg hc] at hafter ⊢
        have hactive : n.qualifiedName ∉ ((d.metrics space id).run m).2.active := by
          have hempty : ((d.metrics space id).run m).2.active = [] := hafter.2
          rw [hempty]
          exact List.not_mem_nil
        exact hafter.1.laid hn hagg ((hm.learnt hd id).known n hn hactive)
    rw [Table.contains] at hcontains
    obtain ⟨l, hl⟩ := Option.isSome_iff_exists.1 hcontains
    rw [hl, hafter.1.layouts hl h]
  · rw [hrun, plainLayout?]
    cases hn : d.types.find? id with
    | none => rfl
    | some n => simp only [hnone n hn, Bool.false_eq_true, if_false]

end LayoutInput

theorem Store.Sound.distinct {s : Store} (h : s.Sound) : s.layoutInput.Distinct where
  id hn := h.typeId _ (Table.mem_entries_of_find? hn)
  name := by
    intro id id' n n' hn hn' hname
    have hentry : ∀ id n, s.types.find? id = some n → (n.qualifiedName, id) ∈ s.byName.entries := by
      intro id n hn
      rw [h.byName]
      exact List.mem_map.2 ⟨(id, n), Table.mem_entries_of_find? hn, rfl⟩
    have h₁ := Table.find?_of_mem_entries h.typeNames (hentry id n hn)
    have h₂ := Table.find?_of_mem_entries h.typeNames (hentry id' n' hn')
    rw [hname] at h₁
    exact Option.some.inj (h₁.symm.trans h₂)

/-- **Memoised layouts are plain.** The metrics and the layout of a type that does not contain
itself are those of the recursion through its parts, whatever was requested before them. -/
theorem memoised_eq_plain {s : Store} (hs : s.Reachable) {m : Memo}
    (hm : s.layoutInput.Reached .words m) {id : TypeId} (h : s.layoutInput.Acyclic id) :
    ((s.layoutInput.metrics .words id).run m).1 = s.layoutInput.plainMetrics .words id h ∧
      ((s.layoutInput.layout? .words id).run m).1 = s.layoutInput.plainLayout? .words id h :=
  ⟨(hm.learnt hs.sound.distinct id).plain h, hm.layout?_eq_plain hs.sound.distinct h⟩

/-- The layout of a struct behind that of another which contains itself. -/
theorem memoised_eq_plain_flagged : ∃ h : flagged.layoutInput.Acyclic ⟨1⟩,
    ((flagged.layoutInput.metrics .words ⟨1⟩).run
        (flagged.layoutInput.serve .words {} (.layout ⟨8⟩))).1 =
      flagged.layoutInput.plainMetrics .words ⟨1⟩ h ∧
    ((flagged.layoutInput.layout? .words ⟨1⟩).run
        (flagged.layoutInput.serve .words {} (.layout ⟨8⟩))).1 =
      flagged.layoutInput.plainLayout? .words ⟨1⟩ h := by
  have hparts : flagged.layoutInput.parts ⟨1⟩ = [] := by
    rw [layoutInput_flagged]
    decide +kernel
  have h : flagged.layoutInput.Acyclic ⟨1⟩ := LayoutInput.acyclic_of_parts (by simp [hparts])
  exact ⟨h, memoised_eq_plain reachable_flagged (.serve .fresh (.layout ⟨8⟩)) h⟩

end DeclGraph
