import DeclGraph.Proofs.Coupling
import DeclGraph.Proofs.LayoutPass

/-!
# Layouts that saturate

Sizes and offsets end at the last word. Nothing but that is lost: layout in words is exact layout,
each size and offset cut off at the end. Rounding up, adding and repeating all agree with cutting
off, so it does not matter that what has been cut off is computed with further. Only the room in a
storage unit is counted in bits, for which words are enough if storage types are smaller than 2 ^ 29
bytes.

* `AddressSpace.alignUp_clamp` and its neighbours: arithmetic agrees with cutting off.
* `Cursor.place_clamped`: so does placing one member.
* `DeclaredType.layout_clamped`: **so does laying out a type.**
* `saturation`: measuring in words goes side by side with exact measuring.
* `layout_saturates`: **what is found in words is what is found exactly, cut off.**
-/

namespace DeclGraph

open AddressSpace

/-! ## Arithmetic -/

namespace AddressSpace

theorem alignUp_clamp (x alignment : Nat) :
    words.alignUp (words.clamp x) alignment = words.clamp (unbounded.alignUp x alignment) := by
  by_cases hx : x ≤ maxWord
  · have hsame : words.clamp x = x := Nat.min_eq_left hx
    rw [hsame]
    unfold alignUp
    split
    · exact hsame.symm
    · split
      · exact hsame.symm
      · rfl
  · -- behind the last word, both sides stay there
    have hlast : words.clamp x = maxWord := Nat.min_eq_right (by omega)
    have hle := le_alignUp x alignment
    have hright : words.clamp (unbounded.alignUp x alignment) = maxWord :=
      Nat.min_eq_right (by omega)
    rw [hlast, hright]
    unfold alignUp
    split
    · rfl
    · split
      · rfl
      · exact Nat.min_eq_right (by omega)

theorem clamp_add_clamp (x y : Nat) :
    words.clamp (words.clamp x + words.clamp y) = words.clamp (x + y) := by
  simp only [clamp_words]
  omega

theorem max_clamp (x y : Nat) : max (words.clamp x) (words.clamp y) = words.clamp (max x y) := by
  simp only [clamp_words]
  omega

theorem clamp_clamp_mul (x count : Nat) :
    words.clamp (words.clamp x * count) = words.clamp (x * count) := by
  rcases Nat.eq_zero_or_pos count with rfl | hcount
  · rfl
  · by_cases hx : x ≤ maxWord
    · rw [clamp_words x, Nat.min_eq_left hx]
    · have hexact : x ≤ x * count := Nat.le_mul_of_pos_right x hcount
      have hcut : maxWord ≤ maxWord * count := Nat.le_mul_of_pos_right maxWord hcount
      simp only [clamp_words]
      rw [Nat.min_eq_right (by omega : maxWord ≤ x), Nat.min_eq_right hcut,
        Nat.min_eq_right (by omega)]

end AddressSpace

/-! ## What is cut off -/

/-- Metrics with the size cut off. -/
def Metrics.clamped (m : Metrics) : Metrics := { m with size := words.clamp m.size }

/-- A slot with offset and size cut off. -/
def BaseSlot.clamped (s : BaseSlot) : BaseSlot :=
  { s with offset := words.clamp s.offset, size := words.clamp s.size }

/-- A slot with offset and size cut off. Its alignment and its bits are as they were. -/
def MemberSlot.clamped (s : MemberSlot) : MemberSlot :=
  { s with offset := words.clamp s.offset, size := words.clamp s.size }

/-- Slots cut off one by one, with their end. -/
def Placed.clamped {σ : Type} (cut : σ → σ) (p : Placed σ) : Placed σ :=
  { p with slots := p.slots.map cut, stop := words.clamp p.stop }

/-- A layout with all sizes and offsets cut off, and the padding that there is then. -/
def Layout.clamped (l : Layout) : Layout :=
  ({ l with
    size := words.clamp l.size
    bases := l.bases.map BaseSlot.clamped
    members := l.members.map MemberSlot.clamped }).withPadding .words

/-- The bits of a storage type are counted by words: it is smaller than 2 ^ 29 bytes. -/
def MemberSlot.Narrow (s : MemberSlot) : Prop := s.bits.isSome = true → s.size < 0x20000000

/-- All storage types of bit-fields are narrow. -/
def Layout.Narrow (l : Layout) : Prop := ∀ s ∈ l.members, s.Narrow

instance (s : MemberSlot) : Decidable s.Narrow := inferInstanceAs (Decidable (_ → _))

instance (l : Layout) : Decidable l.Narrow := List.decidableBAll _ _

namespace Metrics

theorem clamped_array (m : Metrics) (count : Nat) :
    (m.array .unbounded count).clamped = m.clamped.array .words count := by
  simp only [array, make, clamped, clamp_unbounded, clamp_clamp_mul]

theorem clamped_withRequested (m : Metrics) (alignment : Option UInt32) :
    (m.withRequested alignment).clamped = m.clamped.withRequested alignment := by
  unfold withRequested
  split <;> rfl

theorem clamped_ofPrimitive (p : Primitive) : (ofPrimitive p).clamped = ofPrimitive p := by
  cases p <;> rfl

end Metrics

/-! ## Bases -/

/-- A base with the size of its type cut off. -/
def MeasuredBase.clamped (b : MeasuredBase) : MeasuredBase :=
  { b with metrics := b.metrics.clamped }

theorem placeBases_clamped (bs : List MeasuredBase) : ∀ x alignment,
    placeBases .words (words.clamp x) alignment (bs.map MeasuredBase.clamped) =
      (placeBases .unbounded x alignment bs).clamped BaseSlot.clamped := by
  induction bs with
  | nil => exact fun _ _ => rfl
  | cons b bs ih =>
    intro x alignment
    simp only [List.map_cons, placeBases, MeasuredBase.clamped, Metrics.clamped, alignUp_clamp,
      clamp_add_clamp, clamp_unbounded, ih]
    rfl

/-! ## Members -/

/-- A member with its size cut off. -/
def MeasuredMember.clamped (m : MeasuredMember) : MeasuredMember :=
  { m with metrics := m.metrics.clamped }

namespace Cursor

/-- A cursor with its offsets cut off. -/
def clamped (c : Cursor) : Cursor :=
  ⟨words.clamp c.offset, c.unit.map fun u => ⟨words.clamp u.offset, u.size, u.used⟩, c.alignment⟩

/-- The bits of the open unit, and those given out of it, are counted by words. -/
def Narrow (c : Cursor) : Prop := ∀ u, c.unit = some u → u.size < 0x20000000 ∧ u.used ≤ maxWord

end Cursor

/-- A placement with its offset cut off. -/
def Placement.clamped (p : Placement) : Placement := { p with offset := words.clamp p.offset }

namespace Cursor

variable (c : Cursor)

theorem stop_clamped (hc : c.Narrow) :
    c.clamped.stop .words = words.clamp (c.stop .unbounded) := by
  unfold stop clamped
  cases hu : c.unit with
  | none => rfl
  | some u =>
    have hsize : words.clamp u.size = u.size := by
      have hlt := (hc u hu).1
      rw [clamp_words, maxWord]
      omega
    have hstop : words.clamp (words.clamp u.offset + u.size) = words.clamp (u.offset + u.size) := by
      rw [← clamp_add_clamp u.offset, hsize]
    simp only [Option.map_some, StorageUnit.stop, hstop, max_clamp, clamp_unbounded]

theorem leaveUnit_clamped (hc : c.Narrow) :
    c.clamped.leaveUnit .words = (c.leaveUnit .unbounded).clamped := by
  rw [leaveUnit, c.stop_clamped hc]
  rfl

theorem align_clamped (alignment : Nat) :
    c.clamped.align .words alignment = (c.align .unbounded alignment).clamped := by
  simp only [align, clamped, alignUp_clamp]

theorem placeWhole_clamped (hc : c.Narrow) (m : Metrics) :
    c.clamped.placeWhole .words m.clamped =
      ((c.placeWhole .unbounded m).1.clamped, (c.placeWhole .unbounded m).2.clamped) := by
  simp only [placeWhole, c.leaveUnit_clamped hc]
  simp only [leaveUnit, meet, align, clamped, Metrics.clamped, Placement.clamped, alignUp_clamp,
    clamp_add_clamp, clamp_unbounded]

theorem openUnit_clamped (hc : c.Narrow) (size width alignment : Nat) :
    c.clamped.openUnit .words size width alignment =
      ((c.openUnit .unbounded size width alignment).1.clamped,
        (c.openUnit .unbounded size width alignment).2.clamped) := by
  simp only [openUnit, c.leaveUnit_clamped hc, align_clamped]
  rfl

end Cursor

/-- Whether a bit-field joins a narrow unit does not depend on where it ends. -/
theorem StorageUnit.fits_clamped {u : StorageUnit} (hsize : u.size < 0x20000000)
    (offset size width : Nat) :
    (⟨offset, u.size, u.used⟩ : StorageUnit).fits .words size width =
      u.fits .unbounded size width := by
  have hbits : u.size * 8 < maxWord := by
    rw [maxWord]
    omega
  have hroom : min (u.used + width) maxWord ≤ min (u.size * 8) maxWord ↔
      u.used + width ≤ u.size * 8 := by omega
  exact congrArg (u.size == size && ·) (decide_eq_decide.2 hroom)

namespace Cursor

variable (c : Cursor)

theorem placeBits_clamped (hc : c.Narrow) {width : Nat} (hwidth : width < 256) {m : Metrics}
    (hm : m.size < 0x20000000) :
    c.clamped.placeBits .words width m.clamped =
        ((c.placeBits .unbounded width m).1.clamped, (c.placeBits .unbounded width m).2.clamped) ∧
      (c.placeBits .unbounded width m).1.Narrow ∧
      (c.placeBits .unbounded width m).2.bit.isSome = true := by
  have hsize : words.clamp m.size = m.size := by
    rw [clamp_words, maxWord]
    omega
  have hword : width ≤ maxWord := by
    rw [maxWord]
    omega
  have hmax : max m.size 1 < 0x20000000 := by omega
  have hmet : (c.meet m.alignment).Narrow := hc
  have hopen : c.clamped.meet m.alignment = (c.meet m.alignment).clamped := rfl
  have hopened : ((c.meet m.alignment).openUnit .unbounded (max m.size 1) width
      m.alignment).1.Narrow := by
    intro u hu
    obtain rfl := Option.some.inj hu
    exact ⟨hmax, hword⟩
  by_cases hw : width = 0
  · simp only [placeBits, hw, if_true, c.leaveUnit_clamped hc, Metrics.clamped, align_clamped]
    have hclosed : ((c.leaveUnit .unbounded).align .unbounded m.alignment).Narrow := by
      intro u hu
      cases hu
    exact ⟨rfl, hclosed, rfl⟩
  · simp only [placeBits, hw, if_false, Metrics.clamped, hsize, hopen]
    cases hu : (c.meet m.alignment).unit with
    | none =>
      have hu' : (c.meet m.alignment).clamped.unit = none := congrArg (Option.map _) hu
      simp only [hu', (c.meet m.alignment).openUnit_clamped hmet, true_and]
      exact ⟨hopened, rfl⟩
    | some u =>
      obtain ⟨husize, -⟩ := hmet u hu
      have hu' : (c.meet m.alignment).clamped.unit =
          some ⟨words.clamp u.offset, u.size, u.used⟩ := congrArg (Option.map _) hu
      simp only [hu', StorageUnit.fits_clamped husize]
      by_cases hfits : u.fits .unbounded (max m.size 1) width = true
      · have hroom : u.used + width ≤ u.size * 8 := by
          rw [StorageUnit.fits, Bool.and_eq_true] at hfits
          exact of_decide_eq_true hfits.2
        have hused : u.used + width ≤ maxWord := by
          rw [maxWord]
          omega
        have hcut : words.clamp (u.used + width) = u.used + width := Nat.min_eq_left hused
        simp only [hfits, if_true, hcut, clamp_unbounded]
        refine ⟨rfl, fun v hv => ?_, rfl⟩
        obtain rfl := Option.some.inj hv
        exact ⟨husize, hused⟩
      · simp only [hfits, (c.meet m.alignment).openUnit_clamped hmet]
        exact ⟨rfl, hopened, rfl⟩

/-- **Placing a member agrees with cutting off**, if its storage type is narrow. -/
theorem place_clamped (hc : c.Narrow) {width : Option Nat} (hwidth : ∀ w ∈ width, w < 256)
    {m : Metrics} (hm : width.isSome = true → m.size < 0x20000000) :
    c.clamped.place .words width m.clamped =
        ((c.place .unbounded width m).1.clamped, (c.place .unbounded width m).2.clamped) ∧
      (c.place .unbounded width m).1.Narrow := by
  cases width with
  | none => exact ⟨c.placeWhole_clamped hc m, fun u hu => by cases hu⟩
  | some w =>
    obtain ⟨hplaced, hnarrow, -⟩ := c.placeBits_clamped hc (hwidth w rfl) (hm rfl)
    exact ⟨hplaced, hnarrow⟩

end Cursor

section Members

theorem MeasuredMember.width_lt (m : MeasuredMember) : ∀ w ∈ m.width, w < 256 := by
  intro w hw
  obtain ⟨bits, -, rfl⟩ := Option.map_eq_some_iff.1 hw
  exact bits.toNat_lt

/-- A bit-field is given bits. -/
theorem Cursor.bit_place (space : AddressSpace) (c : Cursor) (w : Nat) (m : Metrics) :
    (c.place space (some w) m).2.bit.isSome = true := by
  simp only [place, placeBits]
  by_cases hw : w = 0
  · rw [if_pos hw]
    rfl
  · rw [if_neg hw]
    split
    · split <;> rfl
    · rfl

/-- The slot of a bit-field is as narrow as its storage type. -/
theorem MeasuredMember.size_lt {m : MeasuredMember} {offset : Nat} {bit : Option Nat}
    (hbit : m.width.isSome = true → bit.isSome = true) (h : (m.slot offset bit).Narrow) :
    m.width.isSome = true → m.metrics.size < 0x20000000 := by
  intro hwidth
  refine h ?_
  obtain ⟨w, hw⟩ := Option.isSome_iff_exists.1 hwidth
  obtain ⟨b, rfl⟩ := Option.isSome_iff_exists.1 (hbit hwidth)
  simp only [slot, hw, Option.isSome_some]

theorem placeInOrder_clamped (ms : List MeasuredMember) : ∀ {c : Cursor}, c.Narrow →
    (∀ slot ∈ (placeInOrder .unbounded c ms).slots, slot.Narrow) →
    placeInOrder .words c.clamped (ms.map MeasuredMember.clamped) =
      (placeInOrder .unbounded c ms).clamped MemberSlot.clamped := by
  induction ms with
  | nil =>
    intro c hc _
    simp only [List.map_nil, placeInOrder, Placed.clamped, c.stop_clamped hc]
    rfl
  | cons m ms ih =>
    intro c hc hslots
    simp only [placeInOrder, List.forall_mem_cons] at hslots
    have hbit : m.width.isSome = true →
        (c.place .unbounded m.width m.metrics).2.bit.isSome = true := by
      intro hwidth
      obtain ⟨w, hw⟩ := Option.isSome_iff_exists.1 hwidth
      rw [hw]
      exact c.bit_place _ w m.metrics
    obtain ⟨hplace, hnarrow⟩ :=
      c.place_clamped hc m.width_lt (MeasuredMember.size_lt hbit hslots.1)
    have hrest := ih hnarrow hslots.2
    simp only [List.map_cons, placeInOrder]
    rw [show m.clamped.width = m.width from rfl,
      show m.clamped.metrics = m.metrics.clamped from rfl, hplace, hrest]
    rfl

theorem placeTogether_clamped (start : Nat) (ms : List MeasuredMember) : ∀ stop alignment,
    placeTogether .words (words.clamp start) (words.clamp stop) alignment
        (ms.map MeasuredMember.clamped) =
      (placeTogether .unbounded start stop alignment ms).clamped MemberSlot.clamped := by
  induction ms with
  | nil => exact fun _ _ => rfl
  | cons m ms ih =>
    intro stop alignment
    have hstop : max (words.clamp stop) (words.clamp (words.clamp start + m.clamped.metrics.size)) =
        words.clamp (max stop (start + m.metrics.size)) := by
      rw [← max_clamp, ← clamp_add_clamp start]
      rfl
    simp only [List.map_cons, placeTogether, hstop, clamp_unbounded]
    rw [show m.clamped.metrics.alignment = m.metrics.alignment from rfl, ih]
    rfl

theorem placeMembers_clamped (isUnion : Bool) (start : Nat) (ms : List MeasuredMember)
    (hslots : ∀ slot ∈ (placeMembers .unbounded isUnion start ms).slots, slot.Narrow) :
    placeMembers .words isUnion (words.clamp start) (ms.map MeasuredMember.clamped) =
      (placeMembers .unbounded isUnion start ms).clamped MemberSlot.clamped := by
  unfold placeMembers at hslots ⊢
  split
  · exact placeTogether_clamped start ms start 1
  · next hunion =>
    rw [if_neg hunion] at hslots
    have hstart : (Cursor.start start).Narrow := fun u hu => by cases hu
    exact placeInOrder_clamped ms hstart hslots

end Members

/-- **The layout of a type in words is its exact layout, cut off.** -/
theorem DeclaredType.layout_clamped (n : DeclaredType) (bs : List MeasuredBase)
    (ms : List MeasuredMember) (h : (n.layout .unbounded bs ms).Narrow) :
    n.layout .words (bs.map MeasuredBase.clamped) (ms.map MeasuredMember.clamped) =
      (n.layout .unbounded bs ms).clamped := by
  have hbases : placeBases .words 0 1 (bs.map MeasuredBase.clamped) =
      (placeBases .unbounded 0 1 bs).clamped BaseSlot.clamped := placeBases_clamped bs 0 1
  have hmembers := placeMembers_clamped n.kind.isUnion (placeBases .unbounded 0 1 bs).stop ms h
  simp only [layout, hbases]
  rw [show ((placeBases .unbounded 0 1 bs).clamped BaseSlot.clamped).stop =
    words.clamp (placeBases .unbounded 0 1 bs).stop from rfl, hmembers]
  simp only [Placed.clamped, alignUp_clamp]
  rfl

/-! ## Measuring -/

theorem MeasuredBase.Like.eq_clamped {b b' : MeasuredBase}
    (h : MeasuredBase.Like Eq Metrics.clamped b b') : b' = b.clamped := by
  obtain ⟨hid, hname, hmetrics⟩ := h
  cases b'
  simp only at hid hname hmetrics
  rw [← hid, hname, hmetrics]
  rfl

theorem MeasuredMember.Like.eq_clamped {m m' : MeasuredMember}
    (h : MeasuredMember.Like Eq Metrics.clamped m m') : m' = m.clamped := by
  obtain ⟨hmember, hmetrics⟩ := h
  cases m'
  simp only at hmember hmetrics
  rw [← hmember, hmetrics]
  rfl

namespace LayoutInput

variable (d : LayoutInput)

theorem edgesLike_self (bs : List BaseEdge) : List.Forall₂ (BaseEdge.Like Eq) bs bs := by
  refine List.forall₂_same.2 fun b _ => ⟨rfl, ?_⟩
  cases b.target with
  | none => exact .none
  | some i => exact .some rfl

theorem membersLike_self (scope : String) (ms : List Member) :
    List.Forall₂ (d.MembersLike d Eq Eq scope) ms ms := by
  refine List.forall₂_same.2 fun m _ => ⟨rfl, rfl, ?_, rfl⟩
  cases (d.memberExtent m scope).value.leaf with
  | pointer => exact .pointer
  | primitive p => exact .primitive p
  | type i => exact .type rfl
  | unsized => exact .unsized

theorem typesLike_self (n : DeclaredType) : d.TypesLike d Eq Eq n n :=
  ⟨rfl, rfl, rfl, rfl, rfl, edgesLike_self _, d.membersLike_self _ _⟩

/-- **Measuring in words goes side by side with exact measuring.** What corresponds to metrics and
layouts is what is left of them when they are cut off. -/
def saturation : Coupling d d .unbounded .words where
  ids := Eq
  members := Eq
  convert := Metrics.clamped
  fine := Layout.Narrow
  layouts l l' := l' = l.clamped
  size := rfl
  ids_iff := by rintro _ _ _ _ rfl rfl; rfl
  types := by
    rintro i _ rfl
    cases d.types.find? i with
    | none => exact .none
    | some n => exact .some (d.typesLike_self n)
  fallback := rfl
  primitive := Metrics.clamped_ofPrimitive
  requested := Metrics.clamped_withRequested
  array := Metrics.clamped_array
  lay := by
    intro n n' bs bs' ms ms' hn hbs hms hfine
    obtain rfl := eq_map_of_forall₂ hbs fun _ _ => MeasuredBase.Like.eq_clamped
    obtain rfl := eq_map_of_forall₂ hms fun _ _ => MeasuredMember.Like.eq_clamped
    have hlayout : n'.layout .words (bs.map MeasuredBase.clamped)
        (ms.map MeasuredMember.clamped) = (n.layout .unbounded bs ms).clamped := by
      rw [← n.layout_clamped bs ms hfine]
      simp only [DeclaredType.layout, ← hn.id, hn.kind, hn.alignment, hn.qualifiedName]
    rw [hlayout]
    exact ⟨rfl, rfl⟩

end LayoutInput

/-! ## Requests -/

/-- What a request finds. -/
inductive LayoutAnswer
  | metrics (x : Metrics)
  | layout (l : Option Layout)
  | bases (p : Placed BaseSlot)
  | members (p : Placed MemberSlot)
  deriving DecidableEq, Repr

namespace LayoutAnswer

/-- All that was found, cut off. -/
def clamped : LayoutAnswer → LayoutAnswer
  | metrics x => metrics x.clamped
  | layout l => layout (l.map Layout.clamped)
  | bases p => bases (p.clamped BaseSlot.clamped)
  | members p => members (p.clamped MemberSlot.clamped)

/-- The storage types of the bit-fields in it are narrow. -/
def Narrow : LayoutAnswer → Prop
  | members p => ∀ slot ∈ p.slots, slot.Narrow
  | _ => True

end LayoutAnswer

/-- A request to place members starts at a word. -/
def LayoutRequest.StartsAtWord : LayoutRequest → Prop
  | .members _ start => start ≤ maxWord
  | _ => True

namespace LayoutInput

variable (d : LayoutInput)

/-- What a request finds in a memo. -/
def answer (space : AddressSpace) (m : Memo) : LayoutRequest → LayoutAnswer
  | .metrics id => .metrics ((d.metrics space id).run m).1
  | .named name => .metrics ((d.metricsNamed space name).run m).1
  | .layout id => .layout ((d.layout? space id).run m).1
  | .bases id => .bases ((d.baseSlots space id).run m).1
  | .members id start => .members ((d.memberSlots space id start).run m).1

/-- The memos that the same requests lead to, exactly and in words. -/
inductive SideBySide : Memo → Memo → Prop
  | fresh : SideBySide {} {}
  | serve {M m : Memo} (h : SideBySide M m) (r : LayoutRequest) :
    SideBySide (d.serve .unbounded M r) (d.serve .words m r)
  | taken {M m : Memo} (h : SideBySide M m) :
    SideBySide { M with notes := [] } { m with notes := [] }

/-- The layouts that a memo has are narrow. -/
def NarrowIn (M : Memo) : Prop := ∀ id l, M.layouts.find? id = some l → l.Narrow

variable {d} {M m : Memo}

theorem SideBySide.reached (h : d.SideBySide M m) : d.Reached .unbounded M := by
  induction h with
  | fresh => exact .fresh
  | serve _ r ih => exact ih.serve r
  | taken _ ih => exact ih.taken

/-- **One request** keeps memos side by side, and finds in words what it finds exactly, cut off. -/
theorem serve_saturation (hd : d.Distinct) (hM : M.Booked d .unbounded ∧ M.active = [])
    (hlike : d.saturation.Like M m) (r : LayoutRequest)
    (hgood : d.saturation.Good (d.serve .unbounded M r)) :
    d.saturation.Like (d.serve .unbounded M r) (d.serve .words m r) ∧
      (r.StartsAtWord → (d.answer .unbounded M r).Narrow →
        d.answer .words m r = (d.answer .unbounded M r).clamped) := by
  have hkeeps : ∀ id, ((bookkeeping .unbounded hd).during []).Keeps (d.metrics .unbounded id)
      fun m => (bookkeeping .unbounded hd).found m id := fun id =>
    (bookkeeping .unbounded hd).metricsWithin (Nat.lt_succ_self _)
  have hsizes : ∀ i i', i = i' → d.saturation.Couples [] (d.metrics .unbounded i)
      (d.metrics .words i') fun x y => y = x.clamped := fun _ _ hi => d.saturation.metrics hd hi
  cases r with
  | metrics id =>
    obtain ⟨hlike', hx⟩ := hsizes id id rfl M m hM hlike hgood
    exact ⟨hlike', fun _ _ => congrArg LayoutAnswer.metrics hx⟩
  | named name =>
    simp only [serve, answer, metricsNamed] at hgood ⊢
    cases hid : d.byName.find? name with
    | some id =>
      simp only [hid] at hgood
      obtain ⟨hlike', hx⟩ := hsizes id id rfl M m hM hlike hgood
      exact ⟨hlike', fun _ _ => congrArg LayoutAnswer.metrics hx⟩
    | none =>
      have hx := d.saturation.ofPrimitiveName name
      exact ⟨hlike, fun _ _ => congrArg LayoutAnswer.metrics hx.symm⟩
  | layout id =>
    obtain ⟨hlike', hl⟩ := d.saturation.layout? hd (i := id) rfl M m hM hlike hgood
    refine ⟨hlike', fun _ _ => congrArg LayoutAnswer.layout ?_⟩
    generalize ((d.layout? .unbounded id).run M).1 = l, ((d.layout? .words id).run m).1 = l' at hl
    cases hl with
    | none => rfl
    | some heq => exact congrArg some heq
  | bases id =>
    obtain ⟨hlike', hbs⟩ := Coupling.measureBases (C := d.saturation)
      (edgesLike_self (d.basesOf id)) (fun i _ => hkeeps i) (fun i _ i' hi => hsizes i i' hi) M m hM
      hlike hgood
    refine ⟨hlike', fun _ _ => congrArg LayoutAnswer.bases ?_⟩
    have hclamped := eq_map_of_forall₂ hbs fun _ _ => MeasuredBase.Like.eq_clamped
    exact (congrArg (placeBases .words 0 1) hclamped).trans (placeBases_clamped _ 0 1)
  | members id start =>
    obtain ⟨hlike', hms⟩ := Coupling.measureMembers (C := d.saturation)
      (d.membersLike_self _ (d.membersOf id)) (fun _ _ i _ => hkeeps i)
      (fun _ _ i i' _ hi => hsizes i i' hi) M m hM hlike hgood
    refine ⟨hlike', fun hstart hslots => congrArg LayoutAnswer.members ?_⟩
    have hclamped := eq_map_of_forall₂ hms fun _ _ => MeasuredMember.Like.eq_clamped
    have hword : words.clamp start = start := Nat.min_eq_left hstart
    have hplaced := placeMembers_clamped _ start _ hslots
    rw [hword] at hplaced
    exact (congrArg (placeMembers .words _ start) hclamped).trans hplaced

theorem SideBySide.like (hd : d.Distinct) (h : d.SideBySide M m) (hgood : d.saturation.Good M) :
    d.saturation.Like M m := by
  induction h with
  | fresh => exact .fresh
  | @serve M m h r ih =>
    have henough : ∀ id, (bookkeeping .unbounded hd).enough d.depth [] id := fun _ =>
      Nat.lt_succ_self _
    have hM := h.reached.booked hd
    have hcarries : M.Carries d (d.serve .unbounded M r) := (serve_keeps henough r hM).2
    exact (serve_saturation hd hM (ih (hgood.of_carries hcarries)) r hgood).1
  | @taken M m _ ih => exact (ih hgood).same (M.same_noted []) (m.same_noted [])

end LayoutInput

namespace Store

/-- What is known when all aggregates have been laid out exactly. -/
def exactlyLaidOut (s : Store) : Memo :=
  s.layoutInput.aggregates.foldl
    (fun M n => s.layoutInput.serve .unbounded { M with notes := [] } (.layout n.id)) {}

theorem sideBySide_laidOut (s : Store) :
    s.layoutInput.SideBySide s.exactlyLaidOut s.laidOut := by
  have hrest : ∀ (ns : List DeclaredType) {M m : Memo}, s.layoutInput.SideBySide M m →
      s.layoutInput.SideBySide
        (ns.foldl (fun M n =>
          s.layoutInput.serve .unbounded { M with notes := [] } (.layout n.id)) M)
        (s.layoutInput.layItems m ns).2 := by
    intro ns
    induction ns with
    | nil => exact id
    | cons n ns ih =>
      intro M m h
      rw [LayoutInput.memo_layItems_cons]
      exact ih (h.taken.serve (.layout n.id))
  exact hrest _ .fresh

end Store

/-- **Layout in words is exact layout, cut off.** Whatever is requested, and whatever has been
requested before, the sizes and offsets that are found are the exact ones, with the last word in
place of larger ones; alignments and bit offsets are the exact ones. The same holds of the layouts
that a pass finds. The storage types of bit-fields have to be smaller than 2 ^ 29 bytes. -/
theorem layout_saturates {s : Store} (hs : s.Reachable) :
    (∀ M m, s.layoutInput.SideBySide M m → ∀ r : LayoutRequest, r.StartsAtWord →
      LayoutInput.NarrowIn (s.layoutInput.serve .unbounded M r) →
      (s.layoutInput.answer .unbounded M r).Narrow →
      s.layoutInput.answer .words m r = (s.layoutInput.answer .unbounded M r).clamped) ∧
    (LayoutInput.NarrowIn s.exactlyLaidOut →
      ∀ id, s.layoutOf? id = (s.exactlyLaidOut.layouts.find? id).map Layout.clamped) := by
  have hd := hs.sound.distinct
  have hgood : ∀ M, LayoutInput.NarrowIn M → s.layoutInput.saturation.Good M := fun _ hnarrow =>
    fun id l hl _ => hnarrow id l hl
  constructor
  · intro M m h r hstart hnarrow hanswer
    have hM := h.reached.booked hd
    have henough : ∀ id, (bookkeeping .unbounded hd).enough s.layoutInput.depth [] id := fun _ =>
      Nat.lt_succ_self _
    have hcarries : M.Carries s.layoutInput (s.layoutInput.serve .unbounded M r) :=
      (LayoutInput.serve_keeps henough r hM).2
    have hlike := h.like hd ((hgood _ hnarrow).of_carries hcarries)
    exact (LayoutInput.serve_saturation hd hM hlike r (hgood _ hnarrow)).2 hstart hanswer
  · intro hnarrow id
    have hlike := s.sideBySide_laidOut.like hd (hgood _ hnarrow)
    have hlayouts := hlike.layouts id id rfl
    rw [Store.layoutOf?]
    generalize s.exactlyLaidOut.layouts.find? id = l, s.laidOut.layouts.find? id = l' at hlayouts
    cases hlayouts with
    | none => rfl
    | some heq => exact congrArg some heq

theorem LayoutInput.narrowIn_of_values {M : Memo} (h : ∀ l ∈ M.layouts.values, l.Narrow) :
    LayoutInput.NarrowIn M := fun _ l hl => h l (Table.mem_values_of_find? hl)

/-- A struct in which a byte and a bit-field lie behind the last word. -/
def enormous : Store :=
  [.addType { name := "Huge", kind := .struct },
    .addMember ⟨1⟩ { name := "data", typeString := "int[1073741824]", order := some 0 },
    .addMember ⟨1⟩ { name := "tail", typeString := "char", order := some 1 },
    .addMember ⟨1⟩
      { name := "flag", typeString := "int", order := some 2, bitWidth := some 3 }].foldl
        Store.perform Store.empty

theorem reachable_enormous : enormous.Reachable := Store.leads_foldl _ _

theorem layout_saturates_enormous : ∃ l l' : Layout,
    enormous.layoutInput.answer .unbounded {} (.layout ⟨1⟩) = .layout (some l) ∧
    enormous.layoutInput.answer .words {} (.layout ⟨1⟩) = .layout (some l') ∧
    l.size = 4294967304 ∧ l.members.map (·.offset) = [0, 4294967296, 4294967300] ∧
    l' = l.clamped ∧ l'.size = maxWord ∧ l'.members.map (·.offset) = [0, maxWord, maxWord] ∧
    enormous.layoutOf? ⟨1⟩ = (enormous.exactlyLaidOut.layouts.find? ⟨1⟩).map Layout.clamped := by
  have hordered : enormous.Ordered := by decide +kernel
  obtain ⟨hrequest, hpass⟩ := layout_saturates reachable_enormous
  have hserved : LayoutInput.NarrowIn
      (enormous.layoutInput.serve .unbounded {} (.layout ⟨1⟩)) := by
    refine LayoutInput.narrowIn_of_values ?_
    rw [hordered.layoutInput_eq]
    decide +kernel
  have hlaid : LayoutInput.NarrowIn enormous.exactlyLaidOut := by
    refine LayoutInput.narrowIn_of_values ?_
    rw [Store.exactlyLaidOut, hordered.layoutInput_eq]
    decide +kernel
  have hexact : ((enormous.layoutInput.layout? .unbounded ⟨1⟩).run {}).1.map
      (fun l => (l.size, l.members.map (·.offset))) =
        some (4294967304, [0, 4294967296, 4294967300]) := by
    rw [hordered.layoutInput_eq]
    decide +kernel
  obtain ⟨l, hl, hseen⟩ := Option.map_eq_some_iff.1 hexact
  obtain ⟨hsize, hoffsets⟩ := Prod.mk.inj hseen
  have hanswer : enormous.layoutInput.answer .unbounded {} (.layout ⟨1⟩) = .layout (some l) :=
    congrArg LayoutAnswer.layout hl
  have hwords := hrequest {} {} .fresh (.layout ⟨1⟩) trivial hserved trivial
  rw [hanswer] at hwords
  refine ⟨l, l.clamped, hanswer, hwords, hsize, hoffsets, rfl, ?_, ?_, hpass hlaid ⟨1⟩⟩
  · change words.clamp l.size = maxWord
    rw [hsize]
    rfl
  · have hcut : l.clamped.members.map (·.offset) =
        (l.members.map (·.offset)).map words.clamp := by
      rw [List.map_map]
      exact List.map_map
    rw [hcut, hoffsets]
    rfl

end DeclGraph
