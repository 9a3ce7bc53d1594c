import DeclGraph.Proofs.LayoutReads
import DeclGraph.Proofs.Measuring
import DeclGraph.Proofs.Packing
import DeclGraph.Proofs.Reachable

/-!
# Struct layouts are packed

What a request finds comes from a memo that other requests have filled, so the layout of a struct
is packed only if the memo is sound: what it has of types has positive alignments, and what it has
of layouts was made of metrics that it still has.

* `Memo.Sound`: what holds of a memo while types are measured.
* `soundness`: measuring keeps it.
* `layout?_packed`: the layout of a struct or class is packed, whatever was requested before.
-/

namespace DeclGraph

/-- A memo gives metrics for a type. The fallback stands for types that are not known and for those
that were being measured. -/
def Memo.Gives (d : LayoutInput) (m : Memo) (id : TypeId) (x : Metrics) : Prop :=
  x = .fallback ∨ ∃ n, d.types.find? id = some n ∧ m.metrics.find? n.qualifiedName = some x

/-- The metrics of a type that its layout can be made of. -/
def Memo.Found (d : LayoutInput) (m : Memo) (id : TypeId) (x : Metrics) : Prop :=
  0 < x.alignment ∧ m.Gives d id x

/-- What holds of a memo while types are measured. -/
structure Memo.Sound (d : LayoutInput) (m : Memo) : Prop where
  positive : ∀ name x, m.metrics.find? name = some x → 0 < x.alignment
  idle : ∀ name ∈ m.active, m.metrics.find? name = none
  made : ∀ id l, m.layouts.find? id = some l → ∃ n, d.MadeOf .words (m.Found d) n l

section Positive

variable {d : LayoutInput} {space : AddressSpace} {P : TypeId → Metrics → Prop}

theorem Metrics.withRequested_positive {x : Metrics} (hx : 0 < x.alignment)
    (alignment : Option UInt32) : 0 < (x.withRequested alignment).alignment := by
  unfold withRequested
  split
  · exact Nat.lt_of_lt_of_le Nat.one_pos (Nat.le_max_right _ _)
  · exact hx

theorem Metrics.ofPrimitiveName_positive (name : String) :
    0 < (ofPrimitiveName name).alignment := by
  unfold ofPrimitiveName
  split
  · exact Nat.lt_of_lt_of_le Nat.one_pos (Nat.le_max_right _ _)
  · decide

theorem Extent.metrics_positive (e : Extent) {x : Metrics} (hx : 0 < x.alignment) :
    0 < (e.metrics space x).alignment := by
  unfold Extent.metrics
  induction e.counts generalizing x with
  | nil => exact hx
  | cons count counts ih => exact ih (Nat.lt_of_lt_of_le Nat.one_pos (Nat.le_max_right _ _))

theorem Leaf.Measured.positive (hP : ∀ id x, P id x → 0 < x.alignment) {l : Leaf} {x : Metrics}
    (h : l.Measured P x) : 0 < x.alignment := by
  cases l with
  | pointer => obtain rfl := h; decide
  | primitive p =>
    obtain rfl := h
    exact Nat.lt_of_lt_of_le Nat.one_pos (Nat.le_max_right _ _)
  | type id => exact hP id x h
  | unsized => obtain rfl := h; decide

theorem MemberMeasured.positive (hP : ∀ id x, P id x → 0 < x.alignment) {scope : String}
    {m : Member} {mm : MeasuredMember} (h : MemberMeasured d space P scope m mm) :
    0 < mm.metrics.alignment := by
  obtain ⟨-, x, hx, hmetrics⟩ := h
  rw [hmetrics]
  exact Metrics.withRequested_positive (Extent.metrics_positive _ (hx.positive hP)) _

theorem positive_of_measured (hP : ∀ id x, P id x → 0 < x.alignment) {scope : String}
    {ms : List Member} {mms : List MeasuredMember}
    (h : List.Forall₂ (MemberMeasured d space P scope) ms mms) :
    ∀ mm ∈ mms, 0 < mm.metrics.alignment := by
  intro mm hmm
  obtain ⟨m, -, hmeasured⟩ := exists_of_forall₂ h mm hmm
  exact hmeasured.positive hP

theorem LayoutInput.Measured.positive {layouts : Table TypeId Layout} {n : DeclaredType}
    {x : Metrics} (h : d.Measured space P layouts n x) : 0 < x.alignment := by
  cases h with
  | primitive => exact Metrics.withRequested_positive (Metrics.ofPrimitiveName_positive _) _
  | unsized =>
    have hfallback : 0 < Metrics.fallback.alignment := by decide
    exact Metrics.withRequested_positive hfallback _
  | aggregate => exact Nat.lt_of_lt_of_le Nat.one_pos (Nat.le_max_right _ _)

end Positive

section Soundness

variable {d : LayoutInput} {m m' : Memo}

theorem Memo.Found.mono (h : ∀ name x, m.metrics.find? name = some x →
    m'.metrics.find? name = some x) {id : TypeId} {x : Metrics} (hx : m.Found d id x) :
    m'.Found d id x := by
  obtain ⟨hpos, rfl | ⟨n, hn, hx⟩⟩ := hx
  · exact ⟨hpos, .inl rfl⟩
  · exact ⟨hpos, .inr ⟨n, hn, h _ _ hx⟩⟩

theorem Memo.found_fallback (id : TypeId) : m.Found d id .fallback := ⟨by decide, .inl rfl⟩

theorem Memo.Sound.fresh : ({} : Memo).Sound d :=
  ⟨by simp [Table.find?], by simp, by simp [Table.find?]⟩

theorem Memo.Sound.enter (h : m.Sound d) {name : String} (hname : m.metrics.find? name = none) :
    (m.enter name).Sound d where
  positive := h.positive
  idle := by
    intro other hother
    rcases List.mem_cons.1 hother with rfl | hother
    · exact hname
    · exact h.idle _ hother
  made := h.made

theorem Memo.Sound.store (h : m.Sound d) {n : DeclaredType} {l : Layout}
    (hl : d.MadeOf .words (m.Found d) n l) : (m.store n.id l).Sound d where
  positive := h.positive
  idle := h.idle
  made := by
    intro id l' hl'
    rw [Memo.store, Table.find?_insert] at hl'
    split at hl'
    · obtain rfl := Option.some.inj hl'
      exact ⟨n, hl⟩
    · exact h.made id l' hl'

/-- The name that is left was active, so nothing had been found for it. -/
theorem Memo.Sound.find?_leave (h : m.Sound d) {name : String} (hname : name ∈ m.active)
    (x : Metrics) (other : String) (y : Metrics) (hy : m.metrics.find? other = some y) :
    (m.leave name x).metrics.find? other = some y := by
  rw [Memo.find?_leave, if_neg]
  · exact hy
  · rintro rfl
    rw [h.idle other hname] at hy
    cases hy

theorem Memo.Sound.leave (h : m'.Sound d) {name : String} {x : Metrics}
    (hm : (m.enter name).Extends m') (hname : name ∉ m.active) (hx : 0 < x.alignment) :
    (m'.leave name x).Sound d := by
  have hactive : m'.active = name :: m.active := hm.active
  refine ⟨?_, ?_, ?_⟩
  · intro other y hy
    rw [Memo.find?_leave] at hy
    split at hy
    · obtain rfl := Option.some.inj hy
      exact hx
    · exact h.positive _ _ hy
  · intro other hother
    rw [hm.active_leave] at hother
    rw [Memo.find?_leave, if_neg]
    · exact h.idle other (by simp [hactive, hother])
    · rintro rfl
      exact hname hother
  · intro id l hl
    obtain ⟨n, hl⟩ := h.made id l hl
    exact ⟨n, hl.mono fun _ _ => .mono (h.find?_leave (by simp [hactive]) x)⟩

variable (d) in
/-- **Measuring keeps memos sound**, from every depth and whatever is active. -/
def soundness : Discipline d .words where
  inv m := m.Sound d
  grows := Memo.Extends
  found m := m.Found d
  refl := Memo.Extends.refl
  trans := Memo.Extends.trans
  same := by
    intro m m' hsame h
    have hgrows := hsame.extends
    refine ⟨⟨?_, ?_, ?_⟩, hgrows⟩
    · rw [hsame.metrics]; exact h.positive
    · rw [hsame.active, hsame.metrics]; exact h.idle
    · rw [hsame.layouts]
      intro id l hl
      obtain ⟨n, hl⟩ := h.made id l hl
      exact ⟨n, hl.mono fun _ _ => .mono hgrows.metrics⟩
  keep h hx := hx.mono h.metrics
  enough _ _ _ := True
  active h := h.active
  part _ _ _ := trivial
  spent _ _ := Memo.found_fallback _
  unknown _ := Memo.found_fallback _
  known h hn hx := ⟨h.positive _ _ hx, .inr ⟨_, hn, hx⟩⟩
  cycle _ _ _ _ := Memo.found_fallback _
  enter h _ hname _ := h.enter hname
  store h _ _ _ hl := ⟨h.store hl, rfl, fun _ _ hx => hx⟩
  leave := by
    intro m m' id n x _ hn hname hactive hm' hgrows hx
    refine ⟨hm'.leave hgrows hactive hx.positive, hgrows.leave hname x, hx.positive,
      .inr ⟨n, hn, ?_⟩⟩
    rw [Memo.find?_leave, if_pos rfl]

end Soundness

theorem slots_placeBases (space : AddressSpace) {P : TypeId → Metrics → Prop}
    (bs : List MeasuredBase) (h : ∀ b ∈ bs, P b.typeId b.metrics) : ∀ x a,
    List.Forall₂ (fun (s : BaseSlot) x => P s.typeId x ∧ s.size = x.size)
      (placeBases space x a bs).slots (bs.map (·.metrics)) := by
  induction bs with
  | nil => exact fun _ _ => .nil
  | cons b bs ih =>
    intro x a
    exact .cons ⟨h b (by simp), rfl⟩ (ih (fun b hb => h b (by simp [hb])) _ _)

theorem slots_placeMembers (space : AddressSpace) (isUnion : Bool) (start : Nat)
    (ms : List MeasuredMember) :
    List.Forall₂ (fun (m : MeasuredMember) (slot : MemberSlot) =>
      slot.memberId = m.member.id ∧ slot.size = m.metrics.size) ms
        (placeMembers space isUnion start ms).slots := by
  have hinOrder : ∀ (ms : List MeasuredMember) (c : Cursor),
      List.Forall₂ (fun (m : MeasuredMember) (slot : MemberSlot) =>
        slot.memberId = m.member.id ∧ slot.size = m.metrics.size) ms
          (placeInOrder space c ms).slots := by
    intro ms
    induction ms with
    | nil => exact fun _ => .nil
    | cons m ms ih => exact fun c => .cons ⟨rfl, rfl⟩ (ih _)
  have htogether : ∀ (ms : List MeasuredMember) (stop alignment : Nat),
      List.Forall₂ (fun (m : MeasuredMember) (slot : MemberSlot) =>
        slot.memberId = m.member.id ∧ slot.size = m.metrics.size) ms
          (placeTogether space start stop alignment ms).slots := by
    intro ms
    induction ms with
    | nil => exact fun _ _ => .nil
    | cons m ms ih => exact fun stop alignment => .cons ⟨rfl, rfl⟩ (ih _ _)
  rw [placeMembers]
  split
  · exact htogether ms _ _
  · exact hinOrder ms _

/-- A struct of two bit-fields in one unit with a byte behind it, and a struct that contains
itself. -/
def flagged : Store :=
  [.addType { name := "Flags", kind := .struct },
    .addMember ⟨1⟩ { name := "low", typeString := "int", order := some 0, bitWidth := some 3 },
    .addMember ⟨1⟩ { name := "high", typeString := "int", order := some 1, bitWidth := some 5 },
    .addMember ⟨1⟩ { name := "last", typeString := "char", order := some 2 },
    .addType { name := "Loop", kind := .struct },
    .addMember ⟨8⟩ { name := "next", typeString := "Loop", order := some 0 }].foldl
      Store.perform Store.empty

theorem reachable_flagged : flagged.Reachable := Store.leads_foldl _ _

theorem layoutInput_flagged : flagged.layoutInput = flagged.declaredInput :=
  Store.Ordered.layoutInput_eq (by decide +kernel)

end DeclGraph
