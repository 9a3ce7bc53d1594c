import DeclGraph.Proofs.Alignment

/-!
# Bits of bit-fields

Bit-fields that share a storage unit take its bits one after another. Nothing is placed behind a
unit and at its start again, so bit-fields at one offset are those of one unit.

* `MemberSlot.Owns`: the bits of a bit-field in its unit.
* `Allotted`: what the bits of the bit-fields of a struct are.
* `Cursor.Places.allotted`: one member, in front of those behind it, and
  `allotted_placeInOrder`: all of them.
* `layout?_allotted`: **bit-fields of a struct or class never share a bit, and stay in their unit.**
-/

namespace DeclGraph

open AddressSpace

/-- The slot is that of a bit-field with the bits `b`, and there are some. -/
structure MemberSlot.Owns (s : MemberSlot) (b : BitRange) : Prop where
  bits : s.bits = some b
  some : b.width ≠ 0

/-- The size of the storage unit of a bit-field: that of its type, but at least one byte. -/
def MemberSlot.unitSize (s : MemberSlot) : Nat := max s.size 1

/-- Two bit-fields at one offset share a unit, and the bits of the second one are behind those of
the first. -/
def MemberSlot.Clear (s t : MemberSlot) : Prop :=
  ∀ b c, s.Owns b → t.Owns c → s.offset = t.offset →
    s.unitSize = t.unitSize ∧ b.offset + b.width ≤ c.offset

/-- The bits of a bit-field are in its unit, if the unit has that many. -/
def MemberSlot.Inside (s : MemberSlot) : Prop :=
  ∀ b, s.Owns b → b.width ≤ 8 * s.unitSize → b.offset + b.width ≤ 8 * s.unitSize

/-- **How bits are given out** to the bit-fields of a struct. -/
structure Allotted (slots : List MemberSlot) : Prop where
  clear : slots.Pairwise MemberSlot.Clear
  inside : ∀ s ∈ slots, s.Inside
  first : ∀ before s after, slots = before ++ s :: after → ∀ b, s.Owns b →
    (∀ t ∈ before, ∀ c, t.Owns c → t.offset ≠ s.offset) → b.offset = 0

/-- The bits of a slot that joins the unit `u` are behind those that are in use. -/
def StorageUnit.Clears (u : StorageUnit) (t : MemberSlot) : Prop :=
  ∀ b, t.Owns b → t.offset = u.offset → u.size = t.unitSize ∧ u.used ≤ b.offset

/-- As long as its bits can be counted in a word, a bit-field joins a unit only if there are bits
left for it. -/
theorem StorageUnit.room_of_fits {u : StorageUnit} {size w : Nat}
    (h : u.fits .words size w = true) (hsize : size < 1 <<< 29) :
    u.size = size ∧ u.used + w ≤ 8 * size ∧ words.clamp (u.used + w) = u.used + w := by
  have hword : maxWord = 4294967295 := rfl
  have hshift : 1 <<< 29 = 536870912 := rfl
  simp only [fits, Bool.and_eq_true, beq_iff_eq, clamp_words] at h ⊢
  have hroom := of_decide_eq_true h.2
  omega

/-- The open unit of a cursor ends behind its start. -/
def Cursor.Roomy (c : Cursor) : Prop := ∀ u, c.unit = some u → u.offset < c.stop .words

theorem MeasuredMember.eq_of_owns {m : MeasuredMember} {offset w k : Nat} {b : BitRange}
    (hw : m.width = some w) (h : (m.slot offset (some k)).Owns b) : b = ⟨w, k⟩ := by
  have hbits := h.bits
  simp only [slot, hw] at hbits
  exact (Option.some.inj hbits).symm

theorem MeasuredMember.not_owns {m : MeasuredMember} {offset : Nat} {bit : Option Nat}
    (hw : m.width = none ∨ m.width = some 0) (b : BitRange) : ¬(m.slot offset bit).Owns b := by
  intro h
  have hbits := h.bits
  rcases hw with hw | hw
  · simp [slot, hw] at hbits
  · cases bit with
    | none => simp [slot, hw] at hbits
    | some k =>
      rw [m.eq_of_owns hw h] at h
      exact h.some rfl

section Step

variable {c c' : Cursor} {m : MeasuredMember} {p : Placement} {slots : List MemberSlot}

theorem Cursor.Places.stop_le (hp : c.Places m.metrics m.width c' p) (hc : c.Steady)
    (hpos : 0 < m.metrics.alignment) (hlt : c'.stop .words < maxWord) :
    c.stop .words ≤ c'.stop .words :=
  (Laid.of_places hp hc hpos hlt .nil).le

theorem Cursor.Places.roomy (hp : c.Places m.metrics m.width c' p) (hc : c.Roomy)
    (hlt : c'.stop .words < maxWord) : c'.Roomy := by
  generalize m.width = width at hp
  intro u hu
  cases hp with
  | whole => cases hu
  | mark => cases hu
  | opened hw a =>
    obtain rfl := Option.some.inj hu
    simp only [stop, StorageUnit.stop, clamp_words] at hlt ⊢
    omega
  | @joined _ hw v hv hfits a =>
    obtain rfl := Option.some.inj hu
    have hroom := hc v hv
    simp only [stop, hv] at hroom
    exact hroom

/-- **One member**, in front of those that are placed behind it. -/
theorem Cursor.Places.allotted (hp : c.Places m.metrics m.width c' p) (hc : c.Steady)
    (hroomy : c.Roomy) (hpos : 0 < m.metrics.alignment) (hlt : c'.stop .words < maxWord)
    (hsize : (m.slot p.offset p.bit).bits ≠ none → m.metrics.size < 1 <<< 29)
    (hstart : ∀ t ∈ slots, ∀ b, t.Owns b →
      c'.stop .words ≤ t.offset ∨ c'.unit.map (·.offset) = some t.offset)
    (hunit : ∀ u, c'.unit = some u → ∀ t ∈ slots, u.Clears t) :
    (∀ t ∈ slots, (m.slot p.offset p.bit).Clear t) ∧ (m.slot p.offset p.bit).Inside ∧
      ∀ u, c.unit = some u → ∀ t ∈ m.slot p.offset p.bit :: slots, u.Clears t := by
  have hle := hp.stop_le hc hpos hlt
  -- what starts behind the open unit does not join it
  have hbehind : ∀ u, c.unit = some u → ∀ t ∈ slots, ∀ b, t.Owns b → t.offset = u.offset →
      c'.unit.map (·.offset) = some u.offset := by
    intro u hu t ht b hb hoffset
    have hroom := hroomy u hu
    rcases hstart t ht b hb with h | h
    · omega
    · rw [h, hoffset]
  have hunowned : (∀ b, ¬(m.slot p.offset p.bit).Owns b) → c'.unit = none →
      (∀ t ∈ slots, (m.slot p.offset p.bit).Clear t) ∧ (m.slot p.offset p.bit).Inside ∧
        ∀ u, c.unit = some u → ∀ t ∈ m.slot p.offset p.bit :: slots, u.Clears t := by
    intro hnone hclosed
    refine ⟨fun t _ b d hb => absurd hb (hnone b), fun b hb => absurd hb (hnone b), ?_⟩
    intro u hu t ht b hb hoffset
    rcases List.mem_cons.1 ht with rfl | ht
    · exact absurd hb (hnone b)
    · have h := hbehind u hu t ht b hb hoffset
      rw [hclosed] at h
      cases h
  generalize hwidth : m.width = width at hp
  cases hp with
  | whole a => exact hunowned (m.not_owns (.inl hwidth)) rfl
  | mark a => exact hunowned (m.not_owns (.inr hwidth)) rfl
  | @opened w hw a =>
    have hstop : words.alignUp (c.stop .words) m.metrics.alignment < maxWord :=
      lt_of_le_of_lt (le_max_left _ _) hlt
    have hopen := le_alignUp_words hstop
    refine ⟨fun t ht b d hb hd hoffset => ?_, fun b hb hfits => ?_,
      fun u hu t ht b hb hoffset => ?_⟩
    · obtain rfl := m.eq_of_owns hwidth hb
      obtain ⟨hunits, hused⟩ := hunit _ rfl t ht d hd hoffset.symm
      exact ⟨hunits, by rwa [Nat.zero_add]⟩
    · obtain rfl := m.eq_of_owns hwidth hb
      rwa [Nat.zero_add]
    · -- the new unit is behind the one that was open
      have hroom := hroomy u hu
      rcases List.mem_cons.1 ht with rfl | ht
      · have hsame : words.alignUp (c.stop .words) m.metrics.alignment = u.offset := hoffset
        omega
      · have hsame := Option.some.inj (hbehind u hu t ht b hb hoffset)
        simp only at hsame
        omega
  | @joined w hw u hu hfits a =>
    have hbits : (m.slot u.offset (some u.used)).bits ≠ none := by
      simp [MeasuredMember.slot, hwidth]
    have hbytes : max m.metrics.size 1 < 1 <<< 29 := max_lt (hsize hbits) (by decide)
    obtain ⟨hsame, hfree, hused⟩ := StorageUnit.room_of_fits hfits hbytes
    rw [hused] at hunit
    have hunits : u.size = (m.slot u.offset (some u.used)).unitSize := hsame
    refine ⟨fun t ht b d hb hd hoffset => ?_, fun b hb _ => ?_, fun v hv t ht b hb hoffset => ?_⟩
    · obtain rfl := m.eq_of_owns hwidth hb
      obtain ⟨hunits', hbehind⟩ := hunit _ rfl t ht d hd hoffset.symm
      exact ⟨hunits.symm.trans hunits', hbehind⟩
    · obtain rfl := m.eq_of_owns hwidth hb
      exact hfree
    · obtain rfl := Option.some.inj (hu.symm.trans hv)
      rcases List.mem_cons.1 ht with rfl | ht
      · obtain rfl := m.eq_of_owns hwidth hb
        exact ⟨hunits, le_rfl⟩
      · obtain ⟨hunits', hbehind⟩ := hunit _ rfl t ht b hb hoffset
        exact ⟨hunits', le_trans (Nat.le_add_right _ _) hbehind⟩

end Step

theorem MemberSlot.offset_piece (s : MemberSlot) : s.piece.offset = s.offset := by
  unfold piece
  split
  · rfl
  · split <;> rfl

/-- **All members**, from the place of the cursor on. -/
theorem allotted_placeInOrder (ms : List MeasuredMember)
    (hpos : ∀ m ∈ ms, 0 < m.metrics.alignment) :
    ∀ c : Cursor, c.Steady → c.Roomy → (placeInOrder .words c ms).stop < maxWord →
      (∀ slot ∈ (placeInOrder .words c ms).slots, slot.bits ≠ none → slot.size < 1 <<< 29) →
      (placeInOrder .words c ms).slots.Pairwise MemberSlot.Clear ∧
        (∀ slot ∈ (placeInOrder .words c ms).slots, slot.Inside) ∧
        ∀ u, c.unit = some u → ∀ t ∈ (placeInOrder .words c ms).slots, u.Clears t := by
  induction ms with
  | nil => exact fun _ _ _ _ _ => ⟨.nil, by simp [placeInOrder], by simp [placeInOrder]⟩
  | cons m ms ih =>
    intro c hc hroomy hstop hsize
    have hplaces := c.places m.width m.metrics
    have hsteady := hplaces.steady hc
    have hpos' : ∀ m ∈ ms, 0 < m.metrics.alignment := fun m hm => hpos m (by simp [hm])
    have hlaid := laid_placeInOrder ms hpos' _ hsteady hstop
    have hlt := lt_of_le_of_lt hlaid.le hstop
    have hroomy' := hplaces.roomy hroomy hlt
    simp only [placeInOrder, List.forall_mem_cons] at hsize
    obtain ⟨hclear, hinside, hunit⟩ := ih hpos' _ hsteady hroomy' hstop hsize.2
    have hstart : ∀ t ∈ (placeInOrder .words (c.place .words m.width m.metrics).1 ms).slots,
        ∀ b, t.Owns b → (c.place .words m.width m.metrics).1.stop .words ≤ t.offset ∨
          (c.place .words m.width m.metrics).1.unit.map (·.offset) = some t.offset := by
      intro t ht b _
      have h := hlaid.start_of_mem (List.mem_map_of_mem ht)
      rw [t.offset_piece] at h
      exact h.imp_right And.right
    obtain ⟨hhead, hin, hopen⟩ :=
      hplaces.allotted hc hroomy (hpos m (by simp)) hlt hsize.1 hstart hunit
    exact ⟨.cons hhead hclear, List.forall_mem_cons.2 ⟨hin, hinside⟩, hopen⟩

/-- Bits of the bit-fields of a struct, unless it reaches the end of the address space. -/
theorem allotted_layout {n : DeclaredType} {bs : List MeasuredBase} {ms : List MeasuredMember}
    (hn : n.kind.isUnion = false) (hms : ∀ m ∈ ms, 0 < m.metrics.alignment)
    (hsize : (n.layout .words bs ms).size < maxWord)
    (hbits : ∀ slot ∈ (n.layout .words bs ms).members, slot.bits ≠ none → slot.size < 1 <<< 29) :
    Allotted (n.layout .words bs ms).members := by
  have hseated := seated_layout hn hms hsize
  have hstop := lt_of_le_of_lt (le_alignUp_words hsize) hsize
  simp only [hn, placeMembers, Bool.false_eq_true, if_false] at hstop
  simp only [DeclaredType.layout, Layout.withPadding, hn, placeMembers, Bool.false_eq_true,
    if_false] at hbits hseated ⊢
  have hroomy : (Cursor.start (placeBases .words 0 1 bs).stop).Roomy := fun _ hu =>
    absurd hu (Cursor.unit_start _)
  obtain ⟨hclear, hinside, -⟩ :=
    allotted_placeInOrder ms hms _ (Cursor.steady_start _) hroomy hstop hbits
  refine ⟨hclear, hinside, fun before s after hsplit b hb hfirst => ?_⟩
  by_contra hoffset
  -- a bit-field that joined a unit is behind the one that opened it
  obtain ⟨t, ht, hopens, -⟩ := (hseated before s after hsplit).shared ⟨b, hb.bits, hb.some, hoffset⟩
  obtain ⟨d, hd, hw, -⟩ := hopens.first
  exact hfirst t ht d ⟨hd, hw⟩ hopens.offset

/-- **Bit-fields never share a bit and stay in their unit**, in the layout of a struct or class,
whatever has been requested before it, if their bits can be counted in a word. Bit-fields at one
offset share a unit; each of them has its bits behind those of the earlier ones, the first one has
the first bits, and none has bits behind the unit that is wide enough for it. -/
theorem layout?_allotted {s : Store} {m m' : Memo} {id : TypeId} {l : Layout}
    (hm : s.layoutInput.Reached .words m)
    (hl : (s.layoutInput.layout? .words id).run m = (some l, m'))
    (hkind : l.kind = .struct ∨ l.kind = .class_) (hsize : l.size < maxWord)
    (hbits : ∀ slot ∈ l.members, slot.bits ≠ none → slot.size < 1 <<< 29) :
    Allotted l.members := by
  obtain ⟨n, bs, ms, -, hms, rfl⟩ := hm.exists_made hl
  have hunion : n.kind.isUnion = false := by
    rcases hkind with h | h
    · exact (congrArg Kind.isUnion h).trans rfl
    · exact (congrArg Kind.isUnion h).trans rfl
  exact allotted_layout hunion (positive_of_measured (fun _ _ h => h.1) hms) hsize hbits

/-- Three units of `int` and two of `char`, the first of which is too small for its bit-field. A
bit-field of width zero closes the last of them. -/
def striped : Store :=
  [.addType { name := "S", kind := .struct },
    .addMember ⟨1⟩ { name := "a", typeString := "int", order := some 0, bitWidth := some 3 },
    .addMember ⟨1⟩ { name := "b", typeString := "int", order := some 1, bitWidth := some 5 },
    .addMember ⟨1⟩ { name := "c", typeString := "int", order := some 2, bitWidth := some 30 },
    .addMember ⟨1⟩ { name := "d", typeString := "char", order := some 3, bitWidth := some 12 },
    .addMember ⟨1⟩ { name := "e", typeString := "char", order := some 4, bitWidth := some 1 },
    .addMember ⟨1⟩ { name := "z", typeString := "int", order := some 5, bitWidth := some 0 },
    .addMember ⟨1⟩ { name := "f", typeString := "int", order := some 6, bitWidth := some 2 },
    .addMember ⟨1⟩ { name := "g", typeString := "int", order := some 7, bitWidth := some 6 }].foldl
      Store.perform Store.empty

theorem layout?_allotted_striped : ∃ l m',
    (striped.layoutInput.layout? .words ⟨1⟩).run {} = (some l, m') ∧ l.kind = .struct ∧
      l.size = 16 ∧ l.members =
        [⟨⟨3⟩, "a", "int", 0, 4, 4, some ⟨3, 0⟩⟩, ⟨⟨5⟩, "b", "int", 0, 4, 4, some ⟨5, 3⟩⟩,
          ⟨⟨7⟩, "c", "int", 4, 4, 4, some ⟨30, 0⟩⟩, ⟨⟨9⟩, "d", "char", 8, 1, 1, some ⟨12, 0⟩⟩,
          ⟨⟨11⟩, "e", "char", 9, 1, 1, some ⟨1, 0⟩⟩, ⟨⟨13⟩, "z", "int", 12, 4, 4, some ⟨0, 0⟩⟩,
          ⟨⟨15⟩, "f", "int", 12, 4, 4, some ⟨2, 0⟩⟩, ⟨⟨17⟩, "g", "int", 12, 4, 4, some ⟨6, 2⟩⟩] ∧
      (∀ slot ∈ l.members, slot.bits ≠ none → slot.size < 1 <<< 29) ∧ Allotted l.members := by
  have hordered : striped.Ordered := by decide +kernel
  have hrun : ((striped.layoutInput.layout? .words ⟨1⟩).run {}).1.map
      (fun l => (l.kind, l.size, l.members)) = some (.struct, 16,
        [⟨⟨3⟩, "a", "int", 0, 4, 4, some ⟨3, 0⟩⟩, ⟨⟨5⟩, "b", "int", 0, 4, 4, some ⟨5, 3⟩⟩,
          ⟨⟨7⟩, "c", "int", 4, 4, 4, some ⟨30, 0⟩⟩, ⟨⟨9⟩, "d", "char", 8, 1, 1, some ⟨12, 0⟩⟩,
          ⟨⟨11⟩, "e", "char", 9, 1, 1, some ⟨1, 0⟩⟩, ⟨⟨13⟩, "z", "int", 12, 4, 4, some ⟨0, 0⟩⟩,
          ⟨⟨15⟩, "f", "int", 12, 4, 4, some ⟨2, 0⟩⟩,
          ⟨⟨17⟩, "g", "int", 12, 4, 4, some ⟨6, 2⟩⟩]) := by
    rw [hordered.layoutInput_eq]
    decide +kernel
  obtain ⟨l, m', hl, hseen⟩ := LayoutM.exists_run_of_map hrun
  simp only [Prod.mk.injEq] at hseen
  obtain ⟨hkind, hsize, hslots⟩ := hseen
  have hbits : ∀ slot ∈ l.members, slot.bits ≠ none → slot.size < 1 <<< 29 := by
    rw [hslots]
    decide
  have hlt : l.size < maxWord := by rw [hsize]; decide
  exact ⟨l, m', hl, hkind, hsize, hslots, hbits, layout?_allotted .fresh hl (.inl hkind) hlt hbits⟩

end DeclGraph
