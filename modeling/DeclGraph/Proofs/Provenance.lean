import DeclGraph.Proofs.Memoised

/-!
# Where metrics come from

A layout is made of the metrics that were found for its parts when they were asked for. What has
been found for a type is final, so these are the metrics of the parts, with one exception: a part
that contains itself may have been asked for while it was being measured, and then the fallback
stood for it.

* `LayoutInput.Supplies`: where the metrics of a part come from.
* `Memo.Filed`: the layout of a type is made of such metrics, and filed under that type.
* `provenance`: measuring keeps it.
* `LayoutInput.Reached.filed`: it holds of all memos that requests lead to.
* `LayoutInput.Supplies.settled`: the metrics of a part are those that it has from then on, unless
  it contains itself.
-/

namespace DeclGraph

variable {d : LayoutInput} {m m' : Memo} {id : TypeId} {n : DeclaredType} {x : Metrics}

/-- Where the metrics of a part come from, if those in `found` have been found. -/
inductive LayoutInput.Supplies (d : LayoutInput) (found : Table String Metrics) (id : TypeId) :
    Metrics → Prop
  | unknown (hn : d.types.find? id = none) : Supplies d found id .fallback
  | known {n : DeclaredType} {x : Metrics} (hn : d.types.find? id = some n)
    (hx : found.find? n.qualifiedName = some x) : Supplies d found id x
  | again (hcycle : Relation.TransGen d.HasPart id id) : Supplies d found id .fallback

/-- The metrics that a layout uses for a part are those that the part has by now. Only if it
contains itself, the fallback may stand for them. -/
def LayoutInput.Settled (d : LayoutInput) (m : Memo) (id : TypeId) (x : Metrics) : Prop :=
  x = ((d.metrics .words id).run m).1 ∨ x = .fallback ∧ Relation.TransGen d.HasPart id id

/-- The layouts of a memo belong to types, and are made of what it supplies of their parts. -/
structure Memo.Filed (d : LayoutInput) (m : Memo) : Prop where
  sound : m.Sound d
  stack : d.Stack m.active
  filed : ∀ {id l}, m.layouts.find? id = some l →
    ∃ n, d.types.find? id = some n ∧ d.MadeOf .words (d.Supplies m.metrics) n l

namespace LayoutInput.Supplies

theorem mono {found found' : Table String Metrics} (h : d.Supplies found id x)
    (hfound : ∀ name x, found.find? name = some x → found'.find? name = some x) :
    d.Supplies found' id x := by
  cases h with
  | unknown hn => exact .unknown hn
  | known hn hx => exact .known hn (hfound _ _ hx)
  | again hcycle => exact .again hcycle

theorem found (h : d.Supplies m.metrics id x) (hm : m.Sound d) : m.Found d id x := by
  cases h with
  | unknown hn => exact Memo.found_fallback id
  | known hn hx => exact ⟨hm.positive _ _ hx, .inr ⟨_, hn, hx⟩⟩
  | again hcycle => exact Memo.found_fallback id

/-- **The metrics of a part are those that it has from then on**, unless it contains itself. -/
theorem settled (h : d.Supplies m.metrics id x) : d.Settled m id x := by
  cases h with
  | unknown hn =>
    left
    simp only [LayoutInput.metrics, LayoutInput.depth, LayoutInput.metricsWithin, hn,
      LayoutM.run_pure]
  | known hn hx =>
    left
    simp only [LayoutInput.metrics, LayoutInput.depth, LayoutInput.metricsWithin, hn, hx,
      LayoutM.run_bind, LayoutM.run_get, LayoutM.run_pure]
  | again hcycle => exact .inr ⟨rfl, hcycle⟩

end LayoutInput.Supplies

namespace Memo.Filed

theorem enter (h : m.Filed d) (hn : d.types.find? id = some n)
    (hname : m.metrics.find? n.qualifiedName = none) (hactive : n.qualifiedName ∉ m.active) :
    (m.enter n.qualifiedName).Filed d where
  sound := h.sound.enter hname
  stack := h.stack.cons hn hactive
  filed := h.filed

theorem store (h : m.Filed d) (hd : d.Distinct) (hn : d.types.find? id = some n) {l : Layout}
    (hl : d.MadeOf .words (d.Supplies m.metrics) n l) : (m.store n.id l).Filed d where
  sound := h.sound.store (hl.mono fun _ _ hx => hx.found h.sound)
  stack := h.stack
  filed := by
    intro id' l' hl'
    rw [Memo.store, Table.find?_insert, hd.id hn] at hl'
    split at hl'
    · subst id'
      obtain rfl := Option.some.inj hl'
      exact ⟨n, hn, hl⟩
    · exact h.filed hl'

theorem leave (h : m'.Filed d) {name : String} (hm : (m.enter name).Extends m')
    (hname : name ∉ m.active) (hx : 0 < x.alignment) : (m'.leave name x).Filed d where
  sound := h.sound.leave hm hname hx
  stack := by
    have hactive : m'.active = name :: m.active := hm.active
    rw [hm.active_leave]
    exact (hactive ▸ h.stack).tail
  filed hl := by
    have hmem : name ∈ m'.active := by simp [hm.active, Memo.enter]
    obtain ⟨n, hn, hmade⟩ := h.filed hl
    exact ⟨n, hn, hmade.mono fun _ _ hx => hx.mono (h.sound.find?_leave hmem _)⟩

end Memo.Filed

/-- **Measuring keeps layouts filed under their types.** -/
def provenance (hd : d.Distinct) : Discipline d .words where
  inv m := m.Filed d
  grows := Memo.Extends
  found m := d.Supplies m.metrics
  refl := Memo.Extends.refl
  trans := Memo.Extends.trans
  same := by
    intro m m' hsame h
    refine ⟨⟨((soundness d).same hsame h.sound).1, ?_, ?_⟩, hsame.extends⟩
    · rw [hsame.active]; exact h.stack
    · rw [hsame.layouts, hsame.metrics]; exact h.filed
  keep h hx := hx.mono h.metrics
  enough := Below d
  active h := h.active
  part h hn hp := h.part hn hp
  spent h hbelow := absurd hbelow h.stack.not_below
  unknown hn := .unknown hn
  known _ hn hx := .known hn hx
  cycle := by
    intro m k id n _ hbelow hn hactive
    -- the name is that of a type above `id`, so `id` is above itself
    obtain ⟨q, n', hq, hname, habove⟩ := hbelow.above _ hactive
    obtain rfl := hd.name hq hn hname
    exact .again habove
  enter h hn hname hactive := h.enter hn hname hactive
  store h hn _ _ hl := ⟨h.store hd hn hl, rfl, fun _ _ hx => hx⟩
  leave := by
    intro m m' id n x _ hn hname hactive hm' hgrows hx
    refine ⟨hm'.leave hgrows hactive hx.positive, hgrows.leave hname x, .known hn ?_⟩
    rw [Memo.find?_leave, if_pos rfl]

/-- Layouts are filed under their types, after any requests. -/
theorem LayoutInput.Reached.filed (hd : d.Distinct) (hm : d.Reached .words m) : m.Filed d := by
  have hfresh : ({} : Memo).Filed d := ⟨.fresh, .nil, by simp [Table.find?]⟩
  exact (Reached.inv (D := provenance hd) hfresh below_nil hm).1

end DeclGraph
