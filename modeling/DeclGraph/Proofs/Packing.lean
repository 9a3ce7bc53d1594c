import Mathlib.Order.Bounds.Basic
import Mathlib.Tactic.Common
import DeclGraph.Layout.Placing

/-!
# Structs without overlap

A struct is laid out from left to right. `Laid x u ps e` derives the bytes `ps` of its slots from
the first free byte `x` on, up to `e`, while the storage unit at `u` is still open.

* `Packed`: what the layout of a struct promises about the bytes of its slots.
* `Laid.packed`: whatever is laid out from left to right is packed.
* `Cursor.places`: the four ways in which placing a member moves the cursor.
* `laid_placeBases`, `laid_placeInOrder`: bases and members are laid out from left to right, unless
  they reach the end of the address space.
* `packed_layout`: so the layout of a struct is packed.
-/

namespace DeclGraph

/-- What a slot does with bytes. A bit-field of width zero only marks a place. -/
inductive Use
  | whole | unit | mark
  deriving DecidableEq, Repr

/-- The bytes of a slot. Those of a bit-field are the whole storage unit, and a mark has none: it
stops where it starts. -/
structure Piece where
  use : Use
  offset : Nat
  stop : Nat
  alignment : Nat
  deriving DecidableEq, Repr

/-- The bytes of a base that was placed with an alignment. -/
def BaseSlot.piece (s : BaseSlot) (alignment : Nat) : Piece :=
  ⟨.whole, s.offset, s.offset + s.size, alignment⟩

/-- The bytes of a member. -/
def MemberSlot.piece (s : MemberSlot) : Piece :=
  match s.bits with
  | none => ⟨.whole, s.offset, s.offset + s.size, s.alignment⟩
  | some b =>
    if b.width = 0 then ⟨.mark, s.offset, s.offset, s.alignment⟩
    else ⟨.unit, s.offset, s.offset + max s.size 1, s.alignment⟩

/-- The bytes of a layout in the order of its slots, with the alignments of the bases. -/
def Layout.pieces (l : Layout) (alignments : List Nat) : List Piece :=
  List.zipWith BaseSlot.piece l.bases alignments ++ l.members.map MemberSlot.piece

/-- **Nothing overlaps and nothing is wasted.** Two pieces share bytes only as bit-fields of one
storage unit, and every base and ordinary member has the lowest aligned offset behind all that
comes before it. -/
structure Packed (ps : List Piece) (size : Nat) : Prop where
  ordered : ps.Pairwise fun p q => p.offset ≤ q.offset
  apart : ps.Pairwise fun p q => p.use ≠ .mark → q.use ≠ .mark →
    p.stop ≤ q.offset ∨ p.use = .unit ∧ q.use = .unit ∧ p.offset = q.offset
  within : ∀ p ∈ ps, p.use ≠ .mark → p.stop ≤ size
  lowest : ∀ before p after, ps = before ++ p :: after → p.use = .whole →
    IsLeast {o | p.alignment ∣ o ∧ ∀ q ∈ before, q.stop ≤ o} p.offset

/-- Bytes laid out from left to right. -/
inductive Laid : Nat → Option Nat → List Piece → Nat → Prop
  | nil {x u} : Laid x u [] x
  | whole {x u o size a ps e} (ho : IsLeast {o | a ∣ o ∧ x ≤ o} o)
      (h : Laid (o + size) none ps e) : Laid x u (⟨.whole, o, o + size, a⟩ :: ps) e
  | mark {x u o a ps e} (ho : IsLeast {o | a ∣ o ∧ x ≤ o} o)
      (h : Laid o none ps e) : Laid x u (⟨.mark, o, o, a⟩ :: ps) e
  | opened {x u o size a ps e} (ho : IsLeast {o | a ∣ o ∧ x ≤ o} o)
      (h : Laid (o + size) (some o) ps e) : Laid x u (⟨.unit, o, o + size, a⟩ :: ps) e
  | joined {x o a ps e} (ho : o ≤ x)
      (h : Laid x (some o) ps e) : Laid x (some o) (⟨.unit, o, x, a⟩ :: ps) e

namespace Laid

variable {x e : Nat} {u : Option Nat} {ps : List Piece}

theorem le (h : Laid x u ps e) : x ≤ e := by
  induction h with
  | nil => exact le_rfl
  | whole ho _ ih => have := ho.1.2; omega
  | mark ho _ ih => have := ho.1.2; omega
  | opened ho _ ih => have := ho.1.2; omega
  | joined _ _ ih => exact ih

/-- A closed unit is as good as an open one that nothing joins. -/
theorem of_none (h : Laid x none ps e) (u : Option Nat) : Laid x u ps e := by
  cases h with
  | nil => exact .nil
  | whole ho h => exact .whole ho h
  | mark ho h => exact .mark ho h
  | opened ho h => exact .opened ho h

theorem append {qs : List Piece} {e' : Nat} (h : Laid x u ps e) (h' : Laid e none qs e') :
    Laid x u (ps ++ qs) e' := by
  induction h with
  | nil => exact h'.of_none _
  | whole ho _ ih => exact .whole ho (ih h')
  | mark ho _ ih => exact .mark ho (ih h')
  | opened ho _ ih => exact .opened ho (ih h')
  | joined ho _ ih => exact .joined ho (ih h')

/-- A piece starts at or after the first free byte, or joins the open unit. -/
theorem start_of_mem (h : Laid x u ps e) {p : Piece} (hp : p ∈ ps) :
    x ≤ p.offset ∨ p.use = .unit ∧ u = some p.offset := by
  induction h with
  | nil => simp at hp
  | whole ho _ ih =>
    have hx := ho.1.2
    rcases List.mem_cons.1 hp with rfl | hp
    · exact .inl hx
    · rcases ih hp with h | ⟨_, h⟩
      · left; omega
      · simp at h
  | mark ho _ ih =>
    have hx := ho.1.2
    rcases List.mem_cons.1 hp with rfl | hp
    · exact .inl hx
    · rcases ih hp with h | ⟨_, h⟩
      · left; omega
      · simp at h
  -- the unit that opens here is the only one that later pieces may join
  | opened ho _ ih =>
    have hx := ho.1.2
    rcases List.mem_cons.1 hp with rfl | hp
    · exact .inl hx
    · rcases ih hp with h | ⟨_, h⟩
      · left; omega
      · left
        obtain rfl : _ = p.offset := Option.some.inj h
        exact hx
  | joined _ _ ih =>
    rcases List.mem_cons.1 hp with rfl | hp
    · exact .inr ⟨rfl, rfl⟩
    · exact ih hp

theorem stop_le (h : Laid x u ps e) {p : Piece} (hp : p ∈ ps) : p.stop ≤ e := by
  induction h with
  | nil => simp at hp
  | whole _ h ih =>
    rcases List.mem_cons.1 hp with rfl | hp
    · exact h.le
    · exact ih hp
  | mark _ h ih =>
    rcases List.mem_cons.1 hp with rfl | hp
    · exact h.le
    · exact ih hp
  | opened _ h ih =>
    rcases List.mem_cons.1 hp with rfl | hp
    · exact h.le
    · exact ih hp
  | joined _ h ih =>
    rcases List.mem_cons.1 hp with rfl | hp
    · exact h.le
    · exact ih hp

theorem ordered (h : Laid x u ps e) : ps.Pairwise fun p q => p.offset ≤ q.offset := by
  induction h with
  | nil => exact .nil
  | whole _ h ih =>
    refine .cons (fun q hq => ?_) ih
    rcases h.start_of_mem hq with hq | ⟨_, hq⟩
    · exact le_trans (Nat.le_add_right _ _) hq
    · simp at hq
  | mark _ h ih =>
    refine .cons (fun q hq => ?_) ih
    rcases h.start_of_mem hq with hq | ⟨_, hq⟩
    · exact hq
    · simp at hq
  | opened _ h ih =>
    refine .cons (fun q hq => ?_) ih
    rcases h.start_of_mem hq with hq | ⟨_, hq⟩
    · exact le_trans (Nat.le_add_right _ _) hq
    · exact le_of_eq (Option.some.inj hq)
  | joined ho h ih =>
    refine .cons (fun q hq => ?_) ih
    rcases h.start_of_mem hq with hq | ⟨_, hq⟩
    · exact le_trans ho hq
    · exact le_of_eq (Option.some.inj hq)

theorem apart (h : Laid x u ps e) : ps.Pairwise fun p q => p.use ≠ .mark → q.use ≠ .mark →
    p.stop ≤ q.offset ∨ p.use = .unit ∧ q.use = .unit ∧ p.offset = q.offset := by
  induction h with
  | nil => exact .nil
  | whole _ h ih =>
    refine .cons (fun q hq _ _ => ?_) ih
    rcases h.start_of_mem hq with hq | ⟨_, hq⟩
    · exact .inl hq
    · simp at hq
  | mark _ _ ih => exact .cons (fun q _ hp _ => absurd rfl hp) ih
  | opened _ h ih =>
    refine .cons (fun q hq _ _ => ?_) ih
    rcases h.start_of_mem hq with hq | ⟨hu, hq⟩
    · exact .inl hq
    · exact .inr ⟨rfl, hu, Option.some.inj hq⟩
  | joined _ h ih =>
    refine .cons (fun q hq _ _ => ?_) ih
    rcases h.start_of_mem hq with hq | ⟨hu, hq⟩
    · exact .inl hq
    · exact .inr ⟨rfl, hu, Option.some.inj hq⟩

/-- The first free byte is the end of all that has been laid out, so what comes next is placed at
the lowest aligned offset behind it. -/
theorem lowest (h : Laid x u ps e) : ∀ before p after, ps = before ++ p :: after →
    p.use = .whole →
    IsLeast {o | p.alignment ∣ o ∧ x ≤ o ∧ ∀ q ∈ before, q.stop ≤ o} p.offset := by
  -- `x'` is the first free byte behind the piece `p₀`, which is the first one of `before`
  have step : ∀ {x x' : Nat} {p₀ : Piece} {qs : List Piece}, x ≤ x' → p₀.stop = x' →
      (∀ before p after, qs = before ++ p :: after → p.use = .whole →
        IsLeast {o | p.alignment ∣ o ∧ x' ≤ o ∧ ∀ q ∈ before, q.stop ≤ o} p.offset) →
      (p₀.use = .whole → IsLeast {o | p₀.alignment ∣ o ∧ x ≤ o} p₀.offset) →
      ∀ before p after, p₀ :: qs = before ++ p :: after → p.use = .whole →
        IsLeast {o | p.alignment ∣ o ∧ x ≤ o ∧ ∀ q ∈ before, q.stop ≤ o} p.offset := by
    intro x x' p₀ qs hx hstop ih h₀ before p after hsplit hp
    cases before with
    | nil =>
      obtain ⟨rfl, rfl⟩ : p₀ = p ∧ qs = after := by simpa using hsplit
      simpa using h₀ hp
    | cons p₁ before =>
      obtain ⟨rfl, rfl⟩ : p₀ = p₁ ∧ qs = before ++ p :: after := by simpa using hsplit
      have hset : {o | p.alignment ∣ o ∧ x ≤ o ∧ ∀ q ∈ p₀ :: before, q.stop ≤ o} =
          {o | p.alignment ∣ o ∧ x' ≤ o ∧ ∀ q ∈ before, q.stop ≤ o} := by
        ext o
        simp only [Set.mem_ofPred_eq, List.forall_mem_cons, hstop]
        constructor
        · rintro ⟨h1, -, h2, h3⟩; exact ⟨h1, h2, h3⟩
        · rintro ⟨h1, h2, h3⟩; exact ⟨h1, le_trans hx h2, h2, h3⟩
      rw [hset]
      exact ih before p after rfl hp
  induction h with
  | nil => intro before p after h; simp at h
  | whole ho _ ih => exact step (le_trans ho.1.2 (Nat.le_add_right _ _)) rfl ih fun _ => ho
  | mark ho _ ih => exact step ho.1.2 rfl ih fun h => by simp at h
  | opened ho _ ih =>
    exact step (le_trans ho.1.2 (Nat.le_add_right _ _)) rfl ih fun h => by simp at h
  | joined _ _ ih => exact step le_rfl rfl ih fun h => by simp at h

/-- **Bytes laid out from left to right are packed.** -/
theorem packed (h : Laid 0 none ps e) {size : Nat} (he : e ≤ size) : Packed ps size where
  ordered := h.ordered
  apart := h.apart
  within p hp _ := le_trans (h.stop_le hp) he
  lowest before p after hsplit hp := by
    simpa using h.lowest before p after hsplit hp

end Laid

/-! ## Rounding up -/

namespace AddressSpace

theorem clamp_words_of_lt {n : Nat} (h : words.clamp n < maxWord) : words.clamp n = n := by
  rw [clamp_words] at *; omega

/-- Below the end of the address space, rounding up gives the least multiple. -/
theorem isLeast_alignUp {offset alignment : Nat} (ha : 0 < alignment)
    (h : words.alignUp offset alignment < maxWord) :
    IsLeast {o | alignment ∣ o ∧ offset ≤ o} (words.alignUp offset alignment) := by
  unfold alignUp at h ⊢
  split
  · obtain rfl : alignment = 1 := by omega
    exact ⟨⟨Nat.one_dvd _, le_rfl⟩, fun o ho => ho.2⟩
  · rw [if_neg ‹_›] at h
    split
    · exact ⟨⟨Nat.dvd_of_mod_eq_zero ‹_›, le_rfl⟩, fun o ho => ho.2⟩
    · rw [if_neg ‹_›] at h
      rw [clamp_words_of_lt h]
      have hmod := Nat.mod_lt offset ha
      have hdiv := Nat.div_add_mod offset alignment
      set q := offset / alignment
      have hnext : offset + (alignment - offset % alignment) = alignment * (q + 1) := by
        rw [Nat.mul_add, Nat.mul_one]; omega
      refine ⟨⟨hnext ▸ Nat.dvd_mul_right _ _, by omega⟩, ?_⟩
      rintro o ⟨⟨k, rfl⟩, ho⟩
      rw [hnext]
      apply Nat.mul_le_mul_left
      -- a multiple above `alignment * q` is at least the next one
      by_contra hk
      have : alignment * k ≤ alignment * q := Nat.mul_le_mul_left _ (by omega)
      omega

theorem le_alignUp_words {offset alignment : Nat} (h : words.alignUp offset alignment < maxWord) :
    offset ≤ words.alignUp offset alignment := by
  rcases Nat.eq_zero_or_pos alignment with rfl | ha
  · exact le_rfl
  · exact (isLeast_alignUp ha h).1.2

end AddressSpace

/-! ## Bases and members -/

open AddressSpace

theorem laid_placeBases (bs : List MeasuredBase) (hpos : ∀ b ∈ bs, 0 < b.metrics.alignment) :
    ∀ x a, (placeBases .words x a bs).stop < maxWord →
      Laid x none
        (List.zipWith BaseSlot.piece (placeBases .words x a bs).slots
          (bs.map (·.metrics.alignment)))
        (placeBases .words x a bs).stop := by
  induction bs with
  | nil => intro x a _; exact .nil
  | cons b bs ih =>
    intro x a hstop
    simp only [placeBases, List.map_cons, List.zipWith_cons_cons, BaseSlot.piece] at hstop ⊢
    have h := ih (fun b hb => hpos b (by simp [hb])) _ _ hstop
    have hlt := lt_of_le_of_lt h.le hstop
    have hsum := clamp_words_of_lt hlt
    rw [hsum] at h hlt ⊢
    exact .whole (isLeast_alignUp (hpos b (by simp)) (by omega)) h

/-- What placing a member does to a cursor, in the four ways it can go. -/
inductive Cursor.Places (c : Cursor) (m : Metrics) : Option Nat → Cursor → Placement → Prop
  | whole (a : Nat) : c.Places m none
      ⟨words.clamp (words.alignUp (c.stop .words) m.alignment + m.size), none, a⟩
      ⟨words.alignUp (c.stop .words) m.alignment, none⟩
  | mark (a : Nat) : c.Places m (some 0)
      ⟨words.alignUp (c.stop .words) m.alignment, none, a⟩
      ⟨words.alignUp (c.stop .words) m.alignment, some 0⟩
  | opened {w : Nat} (hw : w ≠ 0) (a : Nat) : c.Places m (some w)
      ⟨words.alignUp (c.stop .words) m.alignment,
        some ⟨words.alignUp (c.stop .words) m.alignment, max m.size 1, w⟩, a⟩
      ⟨words.alignUp (c.stop .words) m.alignment, some 0⟩
  | joined {w : Nat} (hw : w ≠ 0) {u : StorageUnit} (hu : c.unit = some u)
      (hfits : u.fits .words (max m.size 1) w = true) (a : Nat) : c.Places m (some w)
      ⟨c.offset, some { u with used := words.clamp (u.used + w) }, a⟩ ⟨u.offset, some u.used⟩

theorem Cursor.places (c : Cursor) (width : Option Nat) (m : Metrics) :
    c.Places m width (c.place .words width m).1 (c.place .words width m).2 := by
  cases width with
  | none => exact .whole _
  | some w =>
    simp only [place, placeBits]
    by_cases hw : w = 0
    · subst hw
      exact .mark _
    · simp only [hw, if_false, meet]
      cases hu : c.unit with
      | none =>
        have h : c.stop .words = c.offset := by simp [stop, hu]
        simpa [openUnit, align, leaveUnit, stop, hu, h] using
          Places.opened (c := c) (m := m) hw (max c.alignment m.alignment)
      | some u =>
        simp only
        split
        · exact .joined hw hu ‹_› _
        · simpa [openUnit, align, leaveUnit, stop, hu] using
            Places.opened (c := c) (m := m) hw (max c.alignment m.alignment)

/-- The open unit starts where the cursor stands. -/
def Cursor.Steady (c : Cursor) : Prop := ∀ u, c.unit = some u → u.offset = c.offset

theorem Cursor.unit_start (offset : Nat) {u : StorageUnit} : (start offset).unit ≠ some u :=
  nofun

theorem Cursor.steady_start (offset : Nat) : (start offset).Steady := fun _ hu =>
  absurd hu (unit_start offset)

section Step

variable {c c' : Cursor} {m : MeasuredMember} {p : Placement} {ps : List Piece} {e : Nat}

theorem Cursor.Places.steady {m : Metrics} {w : Option Nat} (h : c.Places m w c' p)
    (hc : c.Steady) : c'.Steady := by
  intro u hu
  cases h with
  | whole => simp at hu
  | mark => simp at hu
  | opened => obtain rfl := Option.some.inj hu; rfl
  | joined _ hu' =>
    have hoff := hc _ hu'
    obtain rfl := Option.some.inj hu
    exact hoff

/-- **One member.** What is laid out behind it is laid out from its own place on. -/
theorem Laid.of_places (hp : c.Places m.metrics m.width c' p) (hc : c.Steady)
    (hpos : 0 < m.metrics.alignment) (he : e < maxWord)
    (h : Laid (c'.stop .words) (c'.unit.map (·.offset)) ps e) :
    Laid (c.stop .words) (c.unit.map (·.offset)) ((m.slot p.offset p.bit).piece :: ps) e := by
  have hlt := lt_of_le_of_lt h.le he
  generalize hwidth : m.width = width at hp
  cases hp with
  | whole a =>
    -- the layout ends below the largest word, so nothing on the way is clamped
    have hsum := clamp_words_of_lt hlt
    change Laid (words.clamp _) none ps e at h
    change words.clamp _ < _ at hlt
    rw [hsum] at h hlt
    simp only [MeasuredMember.slot, MemberSlot.piece, hwidth]
    exact .whole (isLeast_alignUp hpos (by omega)) h
  | mark a =>
    simp only [MeasuredMember.slot, MemberSlot.piece, hwidth, if_true]
    exact .mark (isLeast_alignUp hpos hlt) h
  | opened hw a =>
    generalize ho : words.alignUp (c.stop .words) m.metrics.alignment = o at h hlt ⊢
    change Laid (max o (min (o + max m.metrics.size 1) maxWord)) (some o) ps e at h
    change max o (min (o + max m.metrics.size 1) maxWord) < maxWord at hlt
    have hsum : max o (min (o + max m.metrics.size 1) maxWord) = o + max m.metrics.size 1 := by
      omega
    rw [hsum] at h hlt
    have hleast : IsLeast {o' | m.metrics.alignment ∣ o' ∧ c.stop .words ≤ o'} o :=
      ho ▸ isLeast_alignUp hpos (by omega)
    simp only [MeasuredMember.slot, MemberSlot.piece, hwidth, hw, if_false]
    exact .opened hleast h
  | @joined w hw u hu hfits a =>
    -- the unit is as large as the storage of the member, so its end is the first free byte
    have hstop : c.stop .words = max c.offset (min (u.offset + u.size) maxWord) := by
      simp only [Cursor.stop, hu, StorageUnit.stop, clamp_words]
    change Laid (max c.offset (min (u.offset + u.size) maxWord)) (some u.offset) ps e at h
    change max c.offset (min (u.offset + u.size) maxWord) < maxWord at hlt
    have hoff := hc u hu
    have hsize : u.size = max m.metrics.size 1 := by
      simp only [StorageUnit.fits, Bool.and_eq_true, beq_iff_eq] at hfits
      exact hfits.1
    have hend : max c.offset (min (u.offset + u.size) maxWord) =
        u.offset + max m.metrics.size 1 := by omega
    rw [hend] at h hstop
    simp only [MeasuredMember.slot, MemberSlot.piece, hwidth, hw, if_false, hu, Option.map_some,
      hstop]
    exact .joined (Nat.le_add_right _ _) h

end Step

/-- **The members of a struct are laid out from left to right**, from the place of the cursor on. -/
theorem laid_placeInOrder (ms : List MeasuredMember) (hpos : ∀ m ∈ ms, 0 < m.metrics.alignment) :
    ∀ c : Cursor, c.Steady → (placeInOrder .words c ms).stop < maxWord →
      Laid (c.stop .words) (c.unit.map (·.offset))
        ((placeInOrder .words c ms).slots.map MemberSlot.piece)
        (placeInOrder .words c ms).stop := by
  induction ms with
  | nil => intro c _ _; exact .nil
  | cons m ms ih =>
    intro c hc hstop
    have hplaces := c.places m.width m.metrics
    have h := ih (fun m hm => hpos m (by simp [hm])) _ (hplaces.steady hc) hstop
    exact h.of_places hplaces hc (hpos m (by simp)) hstop

/-- **The layout of a struct is packed**, unless it reaches the end of the address space. -/
theorem packed_layout {n : DeclaredType} {bs : List MeasuredBase} {ms : List MeasuredMember}
    (hn : n.kind.isUnion = false) (hbs : ∀ b ∈ bs, 0 < b.metrics.alignment)
    (hms : ∀ m ∈ ms, 0 < m.metrics.alignment) (hsize : (n.layout .words bs ms).size < maxWord) :
    Packed ((n.layout .words bs ms).pieces (bs.map (·.metrics.alignment)))
      (n.layout .words bs ms).size := by
  have hle := le_alignUp_words hsize
  have hstop := lt_of_le_of_lt hle hsize
  simp only [hn, placeMembers, Bool.false_eq_true, if_false] at hstop hle
  have h₂ := laid_placeInOrder ms hms _ (Cursor.steady_start _) hstop
  have h₁ := laid_placeBases bs hbs 0 1 (lt_of_le_of_lt h₂.le hstop)
  have hall := (h₁.append h₂).packed hle
  simpa only [Layout.pieces, DeclaredType.layout, Layout.withPadding, placeMembers, hn,
    Bool.false_eq_true, if_false] using hall

end DeclGraph
