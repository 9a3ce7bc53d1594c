import Mathlib.Algebra.BigOperators.Intervals
import Mathlib.Dynamics.PeriodicPts.Defs
import DeclGraph.Proofs.MemberSize
import DeclGraph.Proofs.Saturation

/-!
# How large a typedef is

A layout sizes a typedef by its chain: from each typedef it goes on to the one that the target names
in the namespace of the typedef, and every target may be an array. What that comes to can be said
without the walk, since the chain of a name does not depend on what has been visited.

* `LayoutInput.onward?`: the typedef that a chain goes on to, and `LayoutInput.link?`: the chain.
* `LayoutInput.Bottom`, `LayoutInput.DeadEnd`: what there is at the end of a chain.
* `LayoutInput.typedefExtent_cases`: the walk comes to the end of the chain or meets a name again.
* `bounding`: sizes and alignments are those of the address space, whatever is measured.
* `LayoutInput.metrics_measureMember`: a member of the type gets the metrics of the typedef.
* `typedef_size`: **the size of a typedef is the product of the counts on its chain**, times that of
  what is at its end, and saturates once.
-/

namespace DeclGraph

open AddressSpace Finset

namespace LayoutInput

variable (d : LayoutInput)

/-- The name is that of the typedef `t`, and the target of `t` is `r`. -/
structure Aliases (name : String) (t : Typedef) (r : Reference) : Prop where
  typedef : d.typedefs.find? name = some t
  target : d.references.find? t.target = some r

/-- Every typedef has a target. -/
def Targeted : Prop :=
  ∀ name t, d.typedefs.find? name = some t → ∃ r, d.references.find? t.target = some r

/-- The typedef that the target of a typedef names in the namespace of the typedef, if the target is
not indirect. -/
def onward? (name : String) : Option String := do
  let t ← d.typedefs.find? name
  let r ← d.references.find? t.target
  if r.isIndirect then none
  else match d.find? r.base t.space with
    | some (.typedef next) => some next
    | _ => none

/-- The chain of a name: what it comes to after some number of typedefs. -/
def link? (name : String) (k : Nat) : Option String := (·.bind d.onward?)^[k] (some name)

/-- How many elements of its target a typedef stands for. -/
def count (name : String) : Nat :=
  ((d.typedefs.find? name).bind fun t =>
    (d.references.find? t.target).bind (·.elementCount)).elim 1 UInt32.toNat

/-- The product of the counts on a chain, from its first link to link `k`. -/
def counts (name : String) (k : Nat) : Nat :=
  ∏ i ∈ range (k + 1), (d.link? name i).elim 1 d.count

/-- What the typedef `name` is made of, if the chain ends with it. -/
inductive Bottom (name : String) : Leaf → Prop
  | indirect {t r} (h : d.Aliases name t r) (hindirect : r.isIndirect = true) :
    Bottom name .pointer
  | declared {t r id} (h : d.Aliases name t r) (hdirect : r.isIndirect = false)
    (hfind : d.find? r.base t.space = some (.type id)) : Bottom name (.type id)
  | resolved {t r id} (h : d.Aliases name t r) (hdirect : r.isIndirect = false)
    (hfind : d.find? r.base t.space = none) (htarget : r.target = some id) :
    Bottom name (.type id)
  | primitive {t r p} (h : d.Aliases name t r) (hdirect : r.isIndirect = false)
    (hfind : d.find? r.base t.space = none) (htarget : r.target = none)
    (hp : (Declarator.parse r.typeString).primitive = some p) : Bottom name (.primitive p)

/-- Nothing can be said of the size of the typedef `name`: its target is not indirect, names nothing
in scope, is not resolved and spells no primitive. -/
inductive DeadEnd (name : String) : Prop
  | mk {t r} (h : d.Aliases name t r) (hdirect : r.isIndirect = false)
    (hfind : d.find? r.base t.space = none) (htarget : r.target = none)
    (hp : (Declarator.parse r.typeString).primitive = none)

/-- A name comes up twice on the chain. -/
def Loops (name : String) : Prop :=
  ∃ i j n, i < j ∧ d.link? name i = some n ∧ d.link? name j = some n

/-- The metrics of a typedef, if its chain comes to anything. -/
def typedefMetrics (space : AddressSpace) (name : String) : LayoutM (Option Metrics) :=
  match (d.typedefExtent [] name).extent with
  | none => return none
  | some e => do return some (e.metrics space (← leafMetrics (d.metrics space) e.leaf))

variable {d} {name next n : String} {t : Typedef} {r : Reference} {k : Nat} {l : Leaf}

/-! ## One typedef -/

theorem Aliases.count_eq (h : d.Aliases name t r) :
    d.count name = r.elementCount.elim 1 UInt32.toNat := by
  rw [count, h.typedef, Option.bind_some, h.target, Option.bind_some]

theorem Aliases.onward?_eq (h : d.Aliases name t r) : d.onward? name =
    if r.isIndirect then none
    else match d.find? r.base t.space with
      | some (.typedef next) => some next
      | _ => none := by
  simp only [onward?, h.typedef, h.target, Option.bind_eq_bind, Option.bind_some]

theorem Aliases.sizeLink_eq (h : d.Aliases name t r) : d.sizeLink name =
    if r.isIndirect then .leaf .pointer r.elementCount
    else match d.find? r.base t.space with
      | some (.typedef next) => .next next r.elementCount
      | some (.type id) => .leaf (.type id) r.elementCount
      | none =>
        match r.target, (Declarator.parse r.typeString).primitive with
        | some id, _ => .leaf (.type id) r.elementCount
        | none, some p => .leaf (.primitive p) r.elementCount
        | none, none => .deadEnd := by
  simp only [sizeLink, h.typedef, h.target]
  rfl

theorem Bottom.sizeLink (h : d.Bottom name l) :
    (∃ count, d.sizeLink name = .leaf l count) ∧ d.onward? name = none := by
  cases h with
  | indirect h hindirect => simp [h.sizeLink_eq, h.onward?_eq, hindirect]
  | declared h hdirect hfind => simp [h.sizeLink_eq, h.onward?_eq, hdirect, hfind]
  | resolved h hdirect hfind htarget =>
    simp [h.sizeLink_eq, h.onward?_eq, hdirect, hfind, htarget]
  | primitive h hdirect hfind htarget hp =>
    simp [h.sizeLink_eq, h.onward?_eq, hdirect, hfind, htarget, hp]

theorem Bottom.unique {l' : Leaf} (h : d.Bottom name l) (h' : d.Bottom name l') : l = l' := by
  obtain ⟨count, hlink⟩ := h.sizeLink.1
  obtain ⟨count', hlink'⟩ := h'.sizeLink.1
  exact (SizeLink.leaf.inj (hlink.symm.trans hlink')).1

theorem DeadEnd.sizeLink (h : d.DeadEnd name) :
    d.sizeLink name = .deadEnd ∧ d.onward? name = none := by
  obtain ⟨h, hdirect, hfind, htarget, hp⟩ := h
  simp [h.sizeLink_eq, h.onward?_eq, hdirect, hfind, htarget, hp]

/-- A typedef leads on to another one, or the chain ends with it. -/
theorem Aliases.cases (h : d.Aliases name t r) :
    (∃ next, d.sizeLink name = .next next r.elementCount ∧ d.onward? name = some next) ∨
    (∃ l, d.sizeLink name = .leaf l r.elementCount ∧ d.Bottom name l) ∨
      d.sizeLink name = .deadEnd ∧ d.DeadEnd name := by
  rw [h.sizeLink_eq, h.onward?_eq]
  cases hindirect : r.isIndirect with
  | true => exact .inr (.inl ⟨_, rfl, .indirect h hindirect⟩)
  | false =>
    cases hfind : d.find? r.base t.space with
    | some found =>
      cases found with
      | typedef next => exact .inl ⟨next, rfl, rfl⟩
      | type id => exact .inr (.inl ⟨_, rfl, .declared h hindirect hfind⟩)
    | none =>
      cases htarget : r.target with
      | some id => exact .inr (.inl ⟨_, rfl, .resolved h hindirect hfind htarget⟩)
      | none =>
        cases hp : (Declarator.parse r.typeString).primitive with
        | some p => exact .inr (.inl ⟨_, rfl, .primitive h hindirect hfind htarget hp⟩)
        | none => exact .inr (.inr ⟨rfl, h, hindirect, hfind, htarget, hp⟩)

/-- What a name in a scope is found to be has been declared. -/
theorem mem_keys_of_find? {scope : String} (h : d.find? name scope = some (.typedef next)) :
    next ∈ d.typedefs.keys := by
  obtain ⟨candidate, -, hfound⟩ := List.exists_of_findSome?_eq_some h
  split at hfound
  · cases hfound
  · split at hfound
    · next hcontains =>
      obtain rfl := Named.typedef.inj (Option.some.inj hfound)
      exact Table.contains_iff.1 hcontains
    · cases hfound

theorem mem_keys_of_onward? (h : d.onward? name = some next) : next ∈ d.typedefs.keys := by
  simp only [onward?, Option.bind_eq_bind, Option.bind_eq_some_iff] at h
  obtain ⟨t, -, r, -, h⟩ := h
  split at h
  · cases h
  · split at h
    · next hfind =>
      obtain rfl := Option.some.inj h
      exact mem_keys_of_find? hfind
    · cases h

/-! ## The chain -/

theorem link?_succ (d : LayoutInput) (name : String) (k : Nat) :
    d.link? name (k + 1) = (d.link? name k).bind d.onward? :=
  Function.iterate_succ_apply' ..

/-- The chain may be followed from its second name on. -/
theorem link?_of_onward? (h : d.onward? name = some next) (k : Nat) :
    d.link? name (k + 1) = d.link? next k := by
  rw [link?, Function.iterate_succ_apply, Option.bind_some, h, link?]

theorem counts_of_onward? (h : d.onward? name = some next) (k : Nat) :
    d.counts name (k + 1) = d.counts next k * d.count name := by
  rw [counts, prod_range_succ', counts]
  simp only [link?_of_onward? h]
  rfl

/-- A chain that has ended does not go on. -/
theorem link?_eq_none {i j : Nat} (hij : i ≤ j) (h : d.link? name i = none) :
    d.link? name j = none := by
  obtain ⟨k, rfl⟩ := Nat.exists_eq_add_of_le' hij
  rw [link?, Function.iterate_add_apply, ← link?, h]
  exact Function.iterate_fixed rfl k

/-- A chain on which a name comes up twice does not end. -/
theorem Loops.link?_ne_none (h : d.Loops name) (k : Nat) : d.link? name k ≠ none := by
  obtain ⟨i, j, n, hij, hi, hj⟩ := h
  obtain ⟨p, rfl⟩ := Nat.exists_eq_add_of_lt hij
  -- the chain has a period, so it is at `n` again beyond link `k`
  have hperiod : Function.IsPeriodicPt (·.bind d.onward?) (p + 1) (some n) := by
    rw [link?, show i + p + 1 = (p + 1) + i by omega, Function.iterate_add_apply, ← link?, hi] at hj
    exact hj
  intro hnone
  have hlate : d.link? name ((p + 1) * k + i) = some n := by
    rw [link?, Function.iterate_add_apply, ← link?, hi]
    exact hperiod.mul_const k
  have hle : k ≤ (p + 1) * k + i :=
    Nat.le_add_right_of_le (Nat.le_mul_of_pos_left k (Nat.succ_pos p))
  rw [link?_eq_none hle hnone] at hlate
  cases hlate

theorem link?_end (hk : d.link? name k = some n) (hn : d.onward? n = none) :
    d.link? name (k + 1) = none := by
  rw [link?_succ, hk, Option.bind_some, hn]

/-- A chain has one end. -/
theorem end_unique {k' : Nat} {n' : String} (hk : d.link? name k = some n)
    (hn : d.onward? n = none) (hk' : d.link? name k' = some n') (hn' : d.onward? n' = none) :
    k = k' ∧ n = n' := by
  have hle : ∀ {i j : Nat} {m : String}, d.link? name (i + 1) = none →
      d.link? name j = some m → j ≤ i := by
    intro i j m hi hj
    by_contra hlt
    rw [link?_eq_none (by omega) hi] at hj
    cases hj
  obtain rfl : k = k' := Nat.le_antisymm (hle (link?_end hk' hn') hk) (hle (link?_end hk hn) hk')
  exact ⟨rfl, Option.some.inj (hk.symm.trans hk')⟩

/-- A chain that ends with something does not come to a name again, or to a dead end. -/
theorem Bottom.not_stuck (h : d.Bottom n l) (hk : d.link? name k = some n) :
    ¬(d.Loops name ∨ ∃ k n, d.link? name k = some n ∧ d.DeadEnd n) := by
  have hlast := h.sizeLink.2
  rintro (hloops | ⟨k', n', hk', hdead⟩)
  · exact hloops.link?_ne_none _ (link?_end hk hlast)
  · obtain ⟨-, rfl⟩ := end_unique hk hlast hk' hdead.sizeLink.2
    obtain ⟨count, hlink⟩ := h.sizeLink.1
    cases hlink.symm.trans hdead.sizeLink.1

/-! ## The walk -/

theorem prod_times (e : Extent) (count : Option UInt32) :
    ((e.times count).counts.map UInt32.toNat).prod =
      (e.counts.map UInt32.toNat).prod * count.elim 1 UInt32.toNat := by
  cases count <;> simp [Extent.times]

/-- **A walk comes to the end of the chain, or else meets a name again**, one that had been visited
or one that it has met itself. -/
theorem typedefExtent_cases (hd : d.Targeted) (visited : List String)
    (hname : name ∈ d.typedefs.keys) :
    match (d.typedefExtent visited name).extent with
    | none => (∃ k, ∃ v ∈ visited, d.link? name k = some v) ∨ d.Loops name ∨
        ∃ k n, d.link? name k = some n ∧ d.DeadEnd n
    | some e => ∃ k n, d.link? name k = some n ∧ d.Bottom n e.leaf ∧
        (e.counts.map UInt32.toNat).prod = d.counts name k := by
  have hread : ∀ m ∈ d.typedefs.keys, ∃ t r, d.Aliases m t r := by
    intro m hm
    obtain ⟨t, ht⟩ := Option.isSome_iff_exists.1 (Table.contains_iff.2 hm)
    obtain ⟨r, hr⟩ := hd m t ht
    exact ⟨t, r, ht, hr⟩
  -- along the walk: what it does from the next name on is shifted by one link
  fun_induction typedefExtent d visited name with
  | case1 visited name hv => exact .inl ⟨0, name, hv, rfl⟩
  | case2 visited name hv hlink =>
    obtain ⟨t, r, ha⟩ := hread name hname
    rcases ha.cases with ⟨next, hlink', -⟩ | ⟨l, hlink', -⟩ | ⟨-, hdead⟩
    · cases hlink.symm.trans hlink'
    · cases hlink.symm.trans hlink'
    · exact .inr (.inr ⟨0, name, rfl, hdead⟩)
  | case3 visited name hv leaf count hlink =>
    obtain ⟨t, r, ha⟩ := hread name hname
    rcases ha.cases with ⟨next, hlink', -⟩ | ⟨l, hlink', hbottom⟩ | ⟨hlink', -⟩
    · cases hlink.symm.trans hlink'
    · obtain ⟨rfl, rfl⟩ := SizeLink.leaf.inj (hlink.symm.trans hlink')
      refine ⟨0, name, rfl, hbottom, ?_⟩
      rw [prod_times, counts, prod_range_one]
      simp [link?, ha.count_eq]
    · cases hlink.symm.trans hlink'
  | case4 visited name hv next count hlink rest ih =>
    obtain ⟨t, r, ha⟩ := hread name hname
    rcases ha.cases with ⟨next', hlink', honward⟩ | ⟨l, hlink', -⟩ | ⟨hlink', -⟩
    · obtain ⟨rfl, rfl⟩ := SizeLink.next.inj (hlink.symm.trans hlink')
      have hshift := link?_of_onward? honward
      have hrest := ih (mem_keys_of_onward? honward)
      change match rest.extent.map (·.times r.elementCount) with | none => _ | some e => _
      cases he : rest.extent with
      | none =>
        rw [he] at hrest
        rcases hrest with ⟨k, v, hmem, hk⟩ | ⟨i, j, n, hij, hi, hj⟩ | ⟨k, n, hk, hn⟩
        · rcases List.mem_cons.1 hmem with rfl | hmem
          -- the chain has come back to `name`
          · exact .inr (.inl ⟨0, k + 1, v, by omega, rfl, (hshift k).trans hk⟩)
          · exact .inl ⟨k + 1, v, hmem, (hshift k).trans hk⟩
        · exact .inr (.inl ⟨i + 1, j + 1, n, by omega, (hshift i).trans hi, (hshift j).trans hj⟩)
        · exact .inr (.inr ⟨k + 1, n, (hshift k).trans hk, hn⟩)
      | some e =>
        rw [he] at hrest
        obtain ⟨k, n, hk, hbottom, hprod⟩ := hrest
        refine ⟨k + 1, n, (hshift k).trans hk, hbottom, ?_⟩
        rw [prod_times, hprod, counts_of_onward? honward, ha.count_eq]
    · cases hlink.symm.trans hlink'
    · cases hlink.symm.trans hlink'

/-- A walk that comes to something has met no name again. -/
theorem repeated_typedefExtent {visited : List String} {e : Extent}
    (he : (d.typedefExtent visited name).extent = some e) :
    (d.typedefExtent visited name).repeated = none := by
  fun_induction typedefExtent d visited name generalizing e with
  | case1 => cases he
  | case2 => cases he
  | case3 => rfl
  | case4 visited name hv next count hlink rest =>
    rename_i ih
    obtain ⟨e', he', -⟩ := Option.map_eq_some_iff.1 he
    exact ih he'

end LayoutInput

/-! ## Sizes are words -/

/-- The size is a word, and there is an alignment. -/
structure Metrics.Fits (x : Metrics) : Prop where
  size : x.size ≤ maxWord
  alignment : 0 < x.alignment

theorem Metrics.fits_fallback : Metrics.fallback.Fits := ⟨by decide, by decide⟩

theorem Metrics.fits_ofPrimitive (p : Primitive) : (ofPrimitive p).Fits := by
  cases p <;> exact ⟨by decide, by decide⟩

theorem Metrics.fits_ofPrimitiveName (name : String) : (ofPrimitiveName name).Fits := by
  unfold ofPrimitiveName
  split
  · exact fits_ofPrimitive _
  · exact fits_fallback

theorem Metrics.Fits.withRequested {x : Metrics} (h : x.Fits) (alignment : Option UInt32) :
    (x.withRequested alignment).Fits := by
  refine ⟨?_, withRequested_positive h.alignment alignment⟩
  unfold Metrics.withRequested
  split <;> exact h.size

/-- Repeating in words, count by count, saturates once. -/
theorem Extent.metrics_words (e : Extent) {x : Metrics} (hx : x.Fits) : e.metrics .words x =
    ⟨min ((e.counts.map UInt32.toNat).prod * x.size) maxWord, x.alignment⟩ := by
  unfold Extent.metrics
  induction e.counts generalizing x with
  | nil =>
    rw [List.map_nil, List.prod_nil, Nat.one_mul, Nat.min_eq_left hx.size]
    rfl
  | cons count counts ih =>
    have halign : max x.alignment 1 = x.alignment := Nat.max_eq_left hx.alignment
    have hcut := clamp_clamp_mul (x.size * count.toNat) (counts.map UInt32.toNat).prod
    have hfits : (x.array .words count.toNat).Fits :=
      ⟨clamp_words_le _, Nat.lt_of_lt_of_le Nat.one_pos (Nat.le_max_right _ _)⟩
    rw [List.foldl_cons, ih hfits]
    simp only [Metrics.array, Metrics.make, halign, clamp_words] at hcut ⊢
    rw [Nat.mul_comm, hcut, List.map_cons, List.prod_cons]
    rw [Nat.mul_assoc, Nat.mul_comm x.size]

section Bounding

variable {d : LayoutInput} {P : TypeId → Metrics → Prop}

theorem Leaf.Measured.fits (hP : ∀ id x, P id x → x.Fits) {l : Leaf} {x : Metrics}
    (h : l.Measured P x) : x.Fits := by
  cases l with
  | pointer => obtain rfl := h; exact ⟨by decide, by decide⟩
  | primitive p => obtain rfl := h; exact Metrics.fits_ofPrimitive p
  | type id => exact hP id x h
  | unsized => obtain rfl := h; exact Metrics.fits_fallback

theorem LayoutInput.Measured.fits {layouts : Table TypeId Layout} {n : DeclaredType} {x : Metrics}
    (h : d.Measured .words P layouts n x) : x.Fits := by
  refine ⟨?_, h.positive⟩
  cases h with
  | primitive => exact ((Metrics.fits_ofPrimitiveName _).withRequested _).size
  | unsized => exact (Metrics.fits_fallback.withRequested _).size
  | aggregate _ hl =>
    obtain ⟨bs, ms, -, -, rfl⟩ := hl
    exact (n.fits_layout bs ms).size

variable (d) in
/-- **Whatever is measured, its size is a word.** -/
def bounding : Discipline d .words where
  inv m := ∀ name x, m.metrics.find? name = some x → x.Fits
  grows := Memo.Extends
  found _ _ x := x.Fits
  refl := Memo.Extends.refl
  trans := Memo.Extends.trans
  same hsame h := ⟨by rwa [hsame.metrics], hsame.extends⟩
  keep _ hx := hx
  enough _ _ _ := True
  active h := h.active
  part _ _ _ := trivial
  spent _ _ := Metrics.fits_fallback
  unknown _ := Metrics.fits_fallback
  known h _ hx := h _ _ hx
  cycle _ _ _ _ := Metrics.fits_fallback
  enter h _ _ _ := h
  store h _ _ _ _ := ⟨h, rfl, fun _ _ hx => hx⟩
  leave := by
    intro m m' id n x _ _ hname _ hm' hgrows hx
    refine ⟨fun other y hy => ?_, hgrows.leave hname x, hx.fits⟩
    rw [Memo.leave, Table.find?_insert] at hy
    split at hy
    · obtain rfl := Option.some.inj hy
      exact hx.fits
    · exact hm' other y hy

/-- What a leaf is found to take is a word, after any requests. -/
theorem LayoutInput.Reached.fits_leafMetrics {m : Memo} (hm : d.Reached .words m) (l : Leaf) :
    ((LayoutInput.leafMetrics (d.metrics .words) l).run m).1.Fits := by
  have hinv := hm.inv (D := bounding d) (by simp [bounding, Table.find?]) fun _ => trivial
  obtain ⟨-, -, hmeasured⟩ := Contract.leafMetrics (C := (bounding d).during [])
    (l := l) (fun id _ => (bounding d).metricsWithin trivial) m hinv
  exact hmeasured.fits fun _ _ hx => hx

end Bounding

/-! ## Metrics of typedefs -/

namespace LayoutInput

variable {d : LayoutInput} {name : String} {m : Memo}

/-- The metrics of a typedef are what a layout gives an element of a member whose type it is. -/
theorem metrics_measureMember {space : AddressSpace} {scope : String} {member : Member}
    {x : Metrics} (hpointer : member.isFunctionPointer = false)
    (hdirect : (d.referenceOf member).isIndirect = false)
    (hfind : d.find? (d.referenceOf member).base scope = some (.typedef name))
    (hx : ((d.typedefMetrics space name).run m).1 = some x) :
    ((d.measureMember space (d.metrics space) scope member).run m).1.metrics =
      ((d.referenceOf member).elementCount.elim x fun count =>
        x.array space count.toNat).withRequested member.alignment := by
  unfold typedefMetrics at hx
  cases he : (d.typedefExtent [] name).extent with
  | none => simp [he] at hx
  | some e =>
    have hrepeated := repeated_typedefExtent he
    rw [he] at hx
    have hx : e.metrics space ((leafMetrics (d.metrics space) e.leaf).run m).1 = x :=
      Option.some.inj hx
    -- nothing is noted, so the leaf is measured from the same memo
    have helement : d.elementExtent (d.referenceOf member) scope = ⟨e, []⟩ := by
      rw [Reference.base] at hfind
      simp only [elementExtent, hfind, he, hrepeated]
      rfl
    have hextent : d.memberExtent member scope =
        ⟨e.times (d.referenceOf member).elementCount, []⟩ := by
      simp only [memberExtent, hpointer, hdirect, helement, Bool.false_eq_true, if_false]
      rfl
    have htimes : ((e.times (d.referenceOf member).elementCount).metrics space
        ((leafMetrics (d.metrics space) e.leaf).run m).1) =
          (d.referenceOf member).elementCount.elim x fun count => x.array space count.toNat := by
      rw [← hx]
      cases (d.referenceOf member).elementCount <;> simp [Extent.times, Extent.metrics]
    rw [measureMember, hextent, ← htimes]
    rfl

theorem run_typedefMetrics (hd : d.Targeted) (hm : d.Reached .words m)
    (hname : name ∈ d.typedefs.keys) :
    (((d.typedefMetrics .words name).run m).1 = none ∧
      (d.Loops name ∨ ∃ k n, d.link? name k = some n ∧ d.DeadEnd n)) ∨
    ∃ k n l, d.link? name k = some n ∧ d.Bottom n l ∧
      ((d.typedefMetrics .words name).run m).1 =
        some ⟨min (d.counts name k * ((leafMetrics (d.metrics .words) l).run m).1.size) maxWord,
          ((leafMetrics (d.metrics .words) l).run m).1.alignment⟩ := by
  have hcases := typedefExtent_cases hd [] hname
  unfold typedefMetrics
  cases he : (d.typedefExtent [] name).extent with
  | none =>
    rw [he] at hcases
    exact .inl ⟨rfl, hcases.resolve_left (by simp)⟩
  | some e =>
    rw [he] at hcases
    obtain ⟨k, n, hk, hbottom, hprod⟩ := hcases
    refine .inr ⟨k, n, e.leaf, hk, hbottom, ?_⟩
    have hmetrics := e.metrics_words (hm.fits_leafMetrics e.leaf)
    rw [hprod] at hmetrics
    exact congrArg some hmetrics

end LayoutInput

theorem Store.Sound.targeted {s : Store} (h : s.Sound) : s.layoutInput.Targeted := by
  intro name t ht
  rw [h.layout_typedefs] at ht
  rw [h.layout_typedefTarget ht]
  have hentry := Table.mem_entries_of_find? ht
  rw [h.typedefIndex] at hentry
  obtain ⟨e, he, heq⟩ := List.mem_map.1 hentry
  obtain ⟨-, rfl⟩ := Prod.mk.inj heq
  exact Option.isSome_iff_exists.1 (Table.contains_iff.2 (h.typedefTarget e he))

open LayoutInput in
/-- **The size of a typedef is the product of the counts on its chain times the size of what is at
its end**, cut off at the last word, and its alignment is that of what is at the end. There is none
just if the chain comes to a name again or to a dead end. This holds whatever was requested
before. -/
theorem typedef_size {s : Store} (hs : s.Reachable) {m : Memo}
    (hm : s.layoutInput.Reached .words m) {name : String}
    (hname : s.typedefIndex.contains name = true) :
    (((s.layoutInput.typedefMetrics .words name).run m).1 = none ↔ s.layoutInput.Loops name ∨
      ∃ k n, s.layoutInput.link? name k = some n ∧ s.layoutInput.DeadEnd n) ∧
    ∀ x, ((s.layoutInput.typedefMetrics .words name).run m).1 = some x ↔
      ∃ k n l y, s.layoutInput.link? name k = some n ∧ s.layoutInput.Bottom n l ∧
        ((leafMetrics (s.layoutInput.metrics .words) l).run m).1 = y ∧
        x.size = min maxWord (s.layoutInput.counts name k * y.size) ∧
        x.alignment = y.alignment := by
  have hkey : name ∈ s.layoutInput.typedefs.keys := by
    rw [← Table.contains_iff, Table.contains, hs.sound.layout_typedefs]
    exact hname
  have hrun := run_typedefMetrics hs.sound.targeted hm hkey
  generalize s.layoutInput = d at *
  rcases hrun with ⟨hnone, hend⟩ | ⟨k, n, l, hk, hbottom, hsome⟩
  · refine ⟨iff_of_true hnone hend, fun x => ?_⟩
    rw [hnone]
    refine iff_of_false (by simp) ?_
    rintro ⟨k, n, l, y, hk, hbottom, -⟩
    exact hbottom.not_stuck hk hend
  · rw [hsome]
    refine ⟨iff_of_false (by simp) (hbottom.not_stuck hk), fun x => ?_⟩
    constructor
    · intro hx
      obtain rfl := Option.some.inj hx
      exact ⟨k, n, l, _, hk, hbottom, rfl, Nat.min_comm _ _, rfl⟩
    · rintro ⟨k', n', l', y, hk', hbottom', rfl, hsize, halign⟩
      obtain ⟨rfl, rfl⟩ := end_unique hk hbottom.sizeLink.2 hk' hbottom'.sizeLink.2
      obtain rfl := hbottom.unique hbottom'
      rw [Option.some_inj, Nat.min_comm, ← hsize, ← halign]

/-- Typedefs of arrays of arrays in a namespace, a pointer to them, one that does not fit the
address space, two that go round, and one of a name that is not declared. -/
def gridded : Store :=
  [.addType { name := "Node", kind := .struct },
    .addMember ⟨1⟩ { name := "x", typeString := "double", order := some 0 },
    Operation.addTypedef "ns" "Row" "Node[3]",
    Operation.addTypedef "ns" "Grid" "Row[2]",
    Operation.addTypedef "" "Link" "ns::Grid*[5]",
    Operation.addTypedef "" "Huge" "ns::Grid[4000000000]",
    Operation.addTypedef "" "X" "Y",
    Operation.addTypedef "" "Y" "X[0]",
    Operation.addTypedef "" "Lost" "Nowhere[0]"].foldl Store.perform Store.empty

theorem reachable_gridded : gridded.Reachable := Store.leads_foldl _ _

/-- The chain of `ns::Grid` ends with `ns::Row`, whose target is a type of eight bytes. -/
theorem chain_gridded : gridded.layoutInput.link? "ns::Grid" 1 = some "ns::Row" ∧
    gridded.layoutInput.counts "ns::Grid" 1 = 6 ∧
    gridded.layoutInput.typedefs.find? "ns::Row" = some ⟨⟨5⟩, "Row", "ns", ⟨4⟩⟩ ∧
    gridded.layoutInput.references.find? ⟨4⟩ = some (.ofTypeString ⟨4⟩ "Node[3]") ∧
    gridded.layoutInput.find? (Reference.ofTypeString ⟨4⟩ "Node[3]").base "ns" =
      some (.type ⟨1⟩) ∧
    (Reference.ofTypeString ⟨4⟩ "Node[3]").isIndirect = false ∧
    ((gridded.layoutInput.metrics .words ⟨1⟩).run {}).1 = ⟨8, 4⟩ := by decide +kernel

/-- The target of `Link` is a pointer, whatever is behind it. -/
theorem link_gridded :
    gridded.layoutInput.typedefs.find? "Link" = some ⟨⟨9⟩, "Link", "", ⟨8⟩⟩ ∧
    gridded.layoutInput.references.find? ⟨8⟩ = some (.ofTypeString ⟨8⟩ "ns::Grid*[5]") ∧
    (Reference.ofTypeString ⟨8⟩ "ns::Grid*[5]").isIndirect = true ∧
    gridded.layoutInput.counts "Link" 0 = 5 := by decide +kernel

theorem typedef_size_gridded :
    ((gridded.layoutInput.typedefMetrics .words "ns::Grid").run {}).1 = some ⟨48, 4⟩ ∧
    ((gridded.layoutInput.typedefMetrics .words "Link").run {}).1 = some ⟨20, 4⟩ ∧
    ((gridded.layoutInput.typedefMetrics .words "Huge").run {}).1 = some ⟨maxWord, 4⟩ ∧
    gridded.layoutInput.Loops "X" ∧
    ((gridded.layoutInput.typedefMetrics .words "X").run {}).1 = none := by
  obtain ⟨hgrid, hcounts, htypedef, htarget, hfind, hdirect, hnode⟩ := chain_gridded
  obtain ⟨hlink, hpointer, hindirect, hfive⟩ := link_gridded
  have hbottom : gridded.layoutInput.Bottom "ns::Row" (.type ⟨1⟩) :=
    .declared ⟨htypedef, htarget⟩ hdirect hfind
  obtain ⟨hhuge, hproduct, hround⟩ : gridded.layoutInput.link? "Huge" 2 = some "ns::Row" ∧
      gridded.layoutInput.counts "Huge" 2 = 24000000000 ∧
      gridded.layoutInput.link? "X" 2 = some "X" := by decide +kernel
  have hloops : gridded.layoutInput.Loops "X" := ⟨0, 2, "X", by decide, rfl, hround⟩
  refine ⟨?_, ?_, ?_, hloops, ?_⟩
  · refine ((typedef_size reachable_gridded .fresh (by decide +kernel)).2 _).2
      ⟨1, _, _, _, hgrid, hbottom, hnode, ?_, rfl⟩
    rw [hcounts]
    decide
  · refine ((typedef_size reachable_gridded .fresh (by decide +kernel)).2 _).2
      ⟨0, _, _, _, rfl, .indirect ⟨hlink, hpointer⟩ hindirect, rfl, ?_, rfl⟩
    rw [hfive]
    decide
  · refine ((typedef_size reachable_gridded .fresh (by decide +kernel)).2 _).2
      ⟨2, _, _, _, hhuge, hbottom, hnode, ?_, rfl⟩
    rw [hproduct]
    decide
  · exact (typedef_size reachable_gridded .fresh (by decide +kernel)).1.2 (.inl hloops)

end DeclGraph
