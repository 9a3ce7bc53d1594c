import DeclGraph.Proofs.Coupling
import DeclGraph.Proofs.LayoutPass
import DeclGraph.Proofs.MemberSize

/-!
# Declarations under other identities

What layout reads can be declared a second time, under other identities. If names stand for what
corresponds, then so do type strings, typedefs and members, and layouts have the same sizes and
offsets.

* `LayoutInput.NamesLike`: names stand for types and typedefs that correspond.
* `LayoutInput.NamesLike.memberExtent`: **members are made of what corresponds.**
* `Layout.Like`, `layout_like`: layouts of the same size with the same offsets.
* `LayoutInput.recoupling`: measuring the same declarations under other identities.
* `Coupling.layItems`: all aggregates are laid out alike.
-/

namespace DeclGraph

/-! ## Names that correspond -/

/-- References that say the same of types that correspond. -/
structure Reference.Like (ids : TypeId → TypeId → Prop) (r r' : Reference) : Prop where
  typeString : r'.typeString = r.typeString
  isIndirect : r'.isIndirect = r.isIndirect
  elementCount : r'.elementCount = r.elementCount
  target : Option.Rel ids r.target r'.target

/-- Names that stand for types that correspond, or for one typedef. -/
inductive Named.Like (ids : TypeId → TypeId → Prop) : Named → Named → Prop
  | type {i i' : TypeId} (h : ids i i') : Like ids (.type i) (.type i')
  | typedef (name : String) : Like ids (.typedef name) (.typedef name)

/-- Typedefs that say the same of size. -/
inductive SizeLink.Like (ids : TypeId → TypeId → Prop) : SizeLink → SizeLink → Prop
  | leaf {l l' : Leaf} (h : l.Like ids l') (count : Option UInt32) :
    Like ids (.leaf l count) (.leaf l' count)
  | next (name : String) (count : Option UInt32) : Like ids (.next name count) (.next name count)
  | deadEnd : Like ids .deadEnd .deadEnd

namespace LayoutInput

/-- Typedefs in one namespace, with targets that correspond. -/
structure TypedefsLike (d e : LayoutInput) (ids : TypeId → TypeId → Prop) (t t' : Typedef) :
    Prop where
  space : t'.space = t.space
  target : Option.Rel (Reference.Like ids) (d.references.find? t.target)
    (e.references.find? t'.target)

/-- Each name stands for types that correspond, and for typedefs that do. -/
structure NamesLike (d e : LayoutInput) (ids : TypeId → TypeId → Prop) : Prop where
  types : ∀ name, Option.Rel ids (d.byName.find? name) (e.byName.find? name)
  typedefs : ∀ name,
    Option.Rel (d.TypedefsLike e ids) (d.typedefs.find? name) (e.typedefs.find? name)

end LayoutInput

theorem rel_findSome? {α β γ : Type} {R : β → γ → Prop} {f : α → Option β} {g : α → Option γ}
    (h : ∀ a, Option.Rel R (f a) (g a)) (as : List α) :
    Option.Rel R (as.findSome? f) (as.findSome? g) := by
  induction as with
  | nil => exact .none
  | cons a as ih =>
    have ha := h a
    rw [List.findSome?_cons, List.findSome?_cons]
    generalize f a = b, g a = c at ha
    cases ha with
    | none => exact ih
    | some hbc => exact .some hbc

section Extents

variable {ids : TypeId → TypeId → Prop}

theorem Reference.Like.leaf {r r' : Reference} (h : r.Like ids r') : r.leaf.Like ids r'.leaf := by
  have htarget := h.target
  rw [Reference.leaf, Reference.leaf, h.typeString]
  generalize r.target = t, r'.target = t' at htarget
  cases htarget with
  | none =>
    cases (Declarator.parse r.typeString).primitive with
    | none => exact .unsized
    | some p => exact .primitive p
  | some hids => exact .type hids

theorem Reference.Like.base {r r' : Reference} (h : r.Like ids r') : r'.base = r.base := by
  rw [Reference.base, h.typeString, Reference.base]

theorem Extent.Like.times {x x' : Extent} (h : Extent.Like ids x x') (count : Option UInt32) :
    Extent.Like ids (x.times count) (x'.times count) where
  leaf := h.leaf
  counts := congrArg (· ++ count.toList) h.counts

namespace LayoutInput.NamesLike

variable {d e : LayoutInput} (h : d.NamesLike e ids)

include h

theorem find? (name scope : String) :
    Option.Rel (Named.Like ids) (d.find? name scope) (e.find? name scope) := by
  refine rel_findSome? (fun candidate => ?_) _
  have htype := h.types candidate
  have htypedef := h.typedefs candidate
  rw [Table.contains, Table.contains]
  generalize d.byName.find? candidate = i, e.byName.find? candidate = i' at htype
  generalize d.typedefs.find? candidate = t, e.typedefs.find? candidate = t' at htypedef
  cases htype with
  | some hids => exact .some (.type hids)
  | none =>
    cases htypedef with
    | some _ => exact .some (.typedef candidate)
    | none => exact .none

theorem sizeLink (name : String) : SizeLink.Like ids (d.sizeLink name) (e.sizeLink name) := by
  have htypedef := h.typedefs name
  unfold LayoutInput.sizeLink
  generalize d.typedefs.find? name = t, e.typedefs.find? name = t' at htypedef
  cases htypedef with
  | none => exact .deadEnd
  | @some t t' ht =>
    have htarget := ht.target
    dsimp only
    generalize d.references.find? t.target = r, e.references.find? t'.target = r' at htarget
    cases htarget with
    | none => exact .deadEnd
    | @some r r' hr =>
      have hnamed := h.find? r.base t.space
      simp only [hr.isIndirect, hr.elementCount, hr.typeString, ht.space]
      cases r.isIndirect with
      | true => exact .leaf .pointer _
      | false =>
        rw [Reference.base] at hnamed
        simp only [Bool.false_eq_true, if_false]
        generalize d.find? _ _ = n, e.find? _ _ = n' at hnamed
        cases hnamed with
        | some hn =>
          cases hn with
          | type hids => exact .leaf (.type hids) _
          | typedef name => exact .next name _
        | none =>
          have htarget := hr.target
          generalize r.target = i, r'.target = i' at htarget
          cases htarget with
          | some hids => exact .leaf (.type hids) _
          | none =>
            cases (Declarator.parse r.typeString).primitive with
            | some p => exact .leaf (.primitive p) _
            | none => exact .deadEnd

/-- Walks over typedefs end alike. -/
theorem typedefExtent (visited : List String) (name : String) :
    Option.Rel (Extent.Like ids) (d.typedefExtent visited name).extent
      (e.typedefExtent visited name).extent := by
  fun_induction d.typedefExtent visited name with
  | case1 visited name hmem =>
    rw [LayoutInput.typedefExtent, dif_pos hmem]
    exact .none
  | case2 visited name hmem hlink =>
    have hlinks := h.sizeLink name
    rw [hlink] at hlinks
    generalize hlink' : e.sizeLink name = link' at hlinks
    cases hlinks with
    | deadEnd =>
      rw [typedefExtent_of_deadEnd hmem hlink']
      exact .none
  | case3 visited name hmem leaf count hlink =>
    have hlinks := h.sizeLink name
    rw [hlink] at hlinks
    generalize hlink' : e.sizeLink name = link' at hlinks
    cases hlinks with
    | leaf hleaf =>
      have hextent : Extent.Like ids ⟨leaf, []⟩ ⟨_, []⟩ := ⟨hleaf, rfl⟩
      rw [typedefExtent_of_leaf hmem hlink']
      exact .some (hextent.times count)
  | case4 visited name hmem next count hlink rest ih =>
    have hlinks := h.sizeLink name
    rw [hlink] at hlinks
    generalize hlink' : e.sizeLink name = link' at hlinks
    cases hlinks with
    | next =>
      rw [typedefExtent_of_next hmem hlink']
      generalize (e.typedefExtent (name :: visited) next).extent = x' at ih
      change Option.Rel _ (rest.extent.map _) _
      generalize rest.extent = x at ih
      cases ih with
      | none => exact .none
      | some hx => exact .some (hx.times count)

theorem elementExtent {r r' : Reference} (hr : r.Like ids r') (scope : String) :
    Extent.Like ids (d.elementExtent r scope).value (e.elementExtent r' scope).value := by
  have hnamed := h.find? r.base scope
  have hleaf : Extent.Like ids ⟨r.leaf, []⟩ ⟨r'.leaf, []⟩ := ⟨hr.leaf, rfl⟩
  rw [value_elementExtent, value_elementExtent, hr.base]
  generalize d.find? r.base scope = n, e.find? r.base scope = n' at hnamed
  cases hnamed with
  | none => exact hleaf
  | some hn =>
    cases hn with
    | type _ => exact hleaf
    | typedef name =>
      have hextent := h.typedefExtent [] name
      dsimp only
      generalize (d.typedefExtent [] name).extent = x, (e.typedefExtent [] name).extent = x'
        at hextent
      cases hextent with
      | none => exact hleaf
      | some hx => exact hx

/-- **Members are made of what corresponds** if their references say the same. -/
theorem memberExtent {m m' : Member} (hpointer : m'.isFunctionPointer = m.isFunctionPointer)
    (hr : (d.referenceOf m).Like ids (e.referenceOf m')) (scope : String) :
    Extent.Like ids (d.memberExtent m scope).value (e.memberExtent m' scope).value := by
  have hindirect := hr.isIndirect
  cases hm : m.isFunctionPointer with
  | true =>
    simp only [LayoutInput.memberExtent, hpointer, hm, if_true, Noted.value_pure]
    exact ⟨.pointer, rfl⟩
  | false =>
    simp only [LayoutInput.memberExtent, hpointer, hm, hindirect, hr.elementCount,
      Bool.false_eq_true, if_false]
    have hpointers : Extent.Like ids ⟨.pointer, []⟩ ⟨.pointer, []⟩ := ⟨.pointer, rfl⟩
    cases (d.referenceOf m).isIndirect with
    | true => exact hpointers.times _
    | false => exact (h.elementExtent hr scope).times _

end LayoutInput.NamesLike

end Extents

/-! ## Layouts that correspond -/

/-- Layouts of the same size with the same offsets. -/
structure Layout.Like (l l' : Layout) : Prop where
  size : l'.size = l.size
  alignment : l'.alignment = l.alignment
  offsets : List.Forall₂ (fun slot slot' : MemberSlot => slot'.offset = slot.offset) l.members
    l'.members

/-- Members of one width. -/
def Member.SameWidth (m m' : Member) : Prop := m'.bitWidth = m.bitWidth

theorem MeasuredMember.Like.width {convert : Metrics → Metrics} {m m' : MeasuredMember}
    (h : MeasuredMember.Like Member.SameWidth convert m m') : m'.width = m.width :=
  congrArg (Option.map UInt8.toNat) h.member

/-- Placed slots that end alike, with the same offsets. -/
structure Placed.Like (p p' : Placed MemberSlot) : Prop where
  stop : p'.stop = p.stop
  alignment : p'.alignment = p.alignment
  offsets : List.Forall₂ (fun slot slot' : MemberSlot => slot'.offset = slot.offset) p.slots
    p'.slots

section Placing

variable {ids : TypeId → TypeId → Prop} (space : AddressSpace)

theorem placeBases_like {bs bs' : List MeasuredBase}
    (h : List.Forall₂ (MeasuredBase.Like ids id) bs bs') : ∀ offset alignment,
      (placeBases space offset alignment bs').stop = (placeBases space offset alignment bs).stop ∧
        (placeBases space offset alignment bs').alignment =
          (placeBases space offset alignment bs).alignment := by
  induction h with
  | nil => exact fun _ _ => ⟨rfl, rfl⟩
  | cons hb _ ih =>
    intro offset alignment
    simp only [placeBases, hb.metrics, id]
    exact ih _ _

variable {ms ms' : List MeasuredMember}
  (h : List.Forall₂ (MeasuredMember.Like Member.SameWidth id) ms ms')

include h

theorem placeInOrder_like : ∀ c : Cursor,
    (placeInOrder space c ms).Like (placeInOrder space c ms') := by
  induction h with
  | nil => exact fun _ => ⟨rfl, rfl, .nil⟩
  | cons hm _ ih =>
    intro c
    simp only [placeInOrder, hm.width, hm.metrics, id]
    obtain ⟨hstop, halignment, hoffsets⟩ := ih (c.place space _ _).1
    exact ⟨hstop, halignment, .cons rfl hoffsets⟩

theorem placeTogether_like (start : Nat) : ∀ stop alignment,
    (placeTogether space start stop alignment ms).Like
      (placeTogether space start stop alignment ms') := by
  induction h with
  | nil => exact fun _ _ => ⟨rfl, rfl, .nil⟩
  | cons hm _ ih =>
    intro stop alignment
    simp only [placeTogether, hm.metrics, id]
    obtain ⟨hstop, halignment, hoffsets⟩ := ih (max stop _) (max alignment _)
    exact ⟨hstop, halignment, .cons rfl hoffsets⟩

theorem placeMembers_like (isUnion : Bool) (start : Nat) :
    (placeMembers space isUnion start ms).Like (placeMembers space isUnion start ms') := by
  unfold placeMembers
  split
  · exact placeTogether_like space h start start 1
  · exact placeInOrder_like space h (Cursor.start start)

/-- **Layouts correspond** if kinds, requests and the metrics of all parts are the same. -/
theorem layout_like {n n' : DeclaredType} (hkind : n'.kind = n.kind)
    (halignment : n'.alignment = n.alignment) {bs bs' : List MeasuredBase}
    (hbs : List.Forall₂ (MeasuredBase.Like ids id) bs bs') :
    (n.layout space bs ms).Like (n'.layout space bs' ms') := by
  obtain ⟨hstop, hbased⟩ := placeBases_like space hbs 0 1
  obtain ⟨hend, hplaced, hoffsets⟩ :=
    placeMembers_like space h n.kind.isUnion (placeBases space 0 1 bs).stop
  refine ⟨?_, ?_, ?_⟩ <;>
    simp only [DeclaredType.layout, Layout.withPadding, hkind, halignment, hstop, hbased, hend,
      hplaced]
  exact hoffsets

end Placing

/-! ## Measuring the same declarations -/

/-- **Declarations under other identities are measured alike.** -/
def LayoutInput.recoupling (d e : LayoutInput) (space : AddressSpace)
    (ids : TypeId → TypeId → Prop) (hsize : e.types.size = d.types.size)
    (hids : ∀ {i i' j j'}, ids i i' → ids j j' → (i = j ↔ i' = j'))
    (htypes : ∀ {i i'}, ids i i' →
      Option.Rel (d.TypesLike e ids Member.SameWidth) (d.types.find? i) (e.types.find? i')) :
    Coupling d e space space where
  ids := ids
  members := Member.SameWidth
  convert := id
  fine _ := True
  layouts := Layout.Like
  size := hsize
  ids_iff := hids
  types := htypes
  fallback := rfl
  primitive _ := rfl
  requested _ _ := rfl
  array _ _ := rfl
  lay hn hbs hms _ := by
    have hlike := layout_like space hms hn.kind hn.alignment hbs
    exact ⟨hlike, by rw [hlike.size, hlike.alignment]; rfl⟩

namespace Coupling

variable {d e : LayoutInput} {M m : Memo}

/-- **All aggregates are laid out alike**, one after another. -/
theorem layItems (C : Coupling d e .words .words) (hd : d.Distinct) (hfine : ∀ l, C.fine l)
    {ns ns' : List DeclaredType} (hns : List.Forall₂ (fun n n' => C.ids n.id n'.id) ns ns')
    (hM : d.Reached .words M) (hlike : C.Like M m) :
    C.Like (d.layItems M ns).2 (e.layItems m ns').2 := by
  induction hns generalizing M m with
  | nil => exact hlike
  | @cons n n' ns ns' hids _ ih =>
    have hclean : d.Reached .words { M with notes := [] } := hM.taken
    obtain ⟨hnext, -⟩ := C.layout? hd hids _ _ (hclean.booked hd)
      (hlike.same (M.same_noted []) (m.same_noted [])) fun _ l _ _ => hfine l
    rw [d.memo_layItems_cons, e.memo_layItems_cons]
    exact ih (hclean.serve (.layout n.id)) hnext

end Coupling

end DeclGraph
