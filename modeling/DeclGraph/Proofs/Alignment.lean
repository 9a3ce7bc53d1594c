import DeclGraph.Proofs.StructLayout

/-!
# Where members start

A member of a struct starts at a multiple of its alignment, unless it is a bit-field that joins a
storage unit which is open already. Such a bit-field keeps the offset of the one that opened the
unit: the unit has room for it by its size, and its own alignment is not asked for.

* `MemberSlot.Joined`, `MemberSlot.Opens`: the bit-fields of one storage unit.
* `MemberSlot.Seated`: where a member starts, given the members before it.
* `Cursor.Places.seated`: one member is seated, and so are all of a struct (`seated_placeInOrder`).
* `layout?_seated`: **the members of a struct or class are seated**, so that they are aligned if no
  bit-field joins one of a smaller alignment.
* `layout?_not_aligned`: a bit-field that joins one of a smaller alignment.
-/

namespace DeclGraph

open AddressSpace

/-- The slot of a bit-field that joined a storage unit: its bits do not start at the first one. -/
def MemberSlot.Joined (s : MemberSlot) : Prop := ∃ b, s.bits = some b ∧ b.width ≠ 0 ∧ b.offset ≠ 0

/-- The slot `t` is that of the bit-field which opened the storage unit of `s`. -/
structure MemberSlot.Opens (t s : MemberSlot) : Prop where
  first : ∃ b, t.bits = some b ∧ b.width ≠ 0 ∧ b.offset = 0
  offset : t.offset = s.offset
  size : max t.size 1 = max s.size 1

/-- Where a member starts behind others: at a multiple of its alignment, or else in the storage unit
of an earlier one, at a multiple of the alignment of that one. -/
structure MemberSlot.Seated (before : List MemberSlot) (s : MemberSlot) : Prop where
  alone : ¬s.Joined → s.alignment ∣ s.offset
  shared : s.Joined → ∃ t ∈ before, t.Opens s ∧ t.alignment ∣ s.offset

/-- The open unit of a cursor was opened by one of the members before it, and has bits in use. -/
def Cursor.OpenedBy (c : Cursor) (before : List MemberSlot) : Prop :=
  ∀ u, c.unit = some u → u.used ≠ 0 ∧ ∃ t ∈ before, (∃ b, t.bits = some b ∧ b.width ≠ 0 ∧
    b.offset = 0) ∧ t.offset = u.offset ∧ max t.size 1 = u.size ∧ t.alignment ∣ u.offset

section Step

variable {c c' : Cursor} {m : MeasuredMember} {p : Placement} {before : List MemberSlot}

/-- **One member.** It is seated behind those before it, and the unit that is open afterwards was
opened by one of them or by itself. -/
theorem Cursor.Places.seated (hp : c.Places m.metrics m.width c' p) (ho : c.OpenedBy before)
    (hpos : 0 < m.metrics.alignment) (hlt : c'.stop .words < maxWord) :
    (m.slot p.offset p.bit).Seated before ∧ c'.OpenedBy (before ++ [m.slot p.offset p.bit]) := by
  generalize hwidth : m.width = width at hp
  cases hp with
  | whole a =>
    have hsum := clamp_words_of_lt hlt
    change words.clamp _ < _ at hlt
    rw [hsum] at hlt
    have hleast := isLeast_alignUp hpos (lt_of_le_of_lt (Nat.le_add_right _ _) hlt)
    refine ⟨⟨fun _ => hleast.1.1, ?_⟩, fun u hu => by simp at hu⟩
    rintro ⟨b, hb, -⟩
    simp [MeasuredMember.slot, hwidth] at hb
  | mark a =>
    have hleast := isLeast_alignUp hpos hlt
    refine ⟨⟨fun _ => hleast.1.1, ?_⟩, fun u hu => by simp at hu⟩
    rintro ⟨b, hb, hw, -⟩
    obtain rfl : (⟨0, 0⟩ : BitRange) = b := by simpa [MeasuredMember.slot, hwidth] using hb
    exact absurd rfl hw
  | @opened w hw a =>
    have hstop : words.alignUp (c.stop .words) m.metrics.alignment < maxWord :=
      lt_of_le_of_lt (le_max_left _ _) hlt
    have hdvd := (isLeast_alignUp hpos hstop).1.1
    have hbits : (m.slot (words.alignUp (c.stop .words) m.metrics.alignment) (some 0)).bits =
        some ⟨w, 0⟩ := by simp [MeasuredMember.slot, hwidth]
    refine ⟨⟨fun _ => hdvd, ?_⟩, fun u hu => ?_⟩
    · rintro ⟨b, hb, -, hoff⟩
      obtain rfl : (⟨w, 0⟩ : BitRange) = b := Option.some.inj (hbits.symm.trans hb)
      exact absurd rfl hoff
    · -- the unit that opens here starts with this very member
      obtain rfl := Option.some.inj hu
      exact ⟨hw, _, by simp, ⟨_, hbits, hw, rfl⟩, rfl, rfl, hdvd⟩
  | @joined w hw u hu hfits a =>
    obtain ⟨hused, t, ht, hfirst, hoffset, hsize, hdvd⟩ := ho u hu
    have hunit : u.size = max m.metrics.size 1 := by
      simp only [StorageUnit.fits, Bool.and_eq_true, beq_iff_eq] at hfits
      exact hfits.1
    have hbits : (m.slot u.offset (some u.used)).bits = some ⟨w, u.used⟩ := by
      simp [MeasuredMember.slot, hwidth]
    have hopens : t.Opens (m.slot u.offset (some u.used)) := ⟨hfirst, hoffset, hsize.trans hunit⟩
    refine ⟨⟨fun h => absurd ⟨_, hbits, hw, hused⟩ h, fun _ => ⟨t, ht, hopens, hdvd⟩⟩, ?_⟩
    intro u' hu'
    obtain rfl := Option.some.inj hu'
    have hmax : 0 < maxWord := by decide
    have hclamped : words.clamp (u.used + w) ≠ 0 := by
      rw [clamp_words]
      omega
    exact ⟨hclamped, t, by simp [ht], hfirst, hoffset, hsize, hdvd⟩

end Step

/-- **The members of a struct are seated**, behind those that were placed before. -/
theorem seated_placeInOrder (ms : List MeasuredMember) (hpos : ∀ m ∈ ms, 0 < m.metrics.alignment) :
    ∀ (c : Cursor) (placed : List MemberSlot), c.Steady → c.OpenedBy placed →
      (placeInOrder .words c ms).stop < maxWord →
      ∀ before slot after, (placeInOrder .words c ms).slots = before ++ slot :: after →
        slot.Seated (placed ++ before) := by
  -- on the members, for all cursors: what has been placed grows by one slot at each step
  induction ms with
  | nil => intro c placed _ _ _ before slot after h; simp [placeInOrder] at h
  | cons m ms ih =>
    intro c placed hc ho hstop before slot after hsplit
    have hplaces := c.places m.width m.metrics
    have hsteady := hplaces.steady hc
    have hpos' : ∀ m ∈ ms, 0 < m.metrics.alignment := fun m hm => hpos m (by simp [hm])
    have hle := (laid_placeInOrder ms hpos' _ hsteady hstop).le
    have hlt := lt_of_le_of_lt hle hstop
    obtain ⟨hseated, hopened⟩ := hplaces.seated ho (hpos m (by simp)) hlt
    cases before with
    | nil =>
      obtain ⟨rfl, -⟩ := List.cons.inj hsplit
      rw [List.append_nil]
      exact hseated
    | cons s before =>
      obtain ⟨rfl, hrest⟩ := List.cons.inj hsplit
      have h := ih hpos' _ _ hsteady hopened hstop before slot after hrest
      rwa [List.append_assoc] at h

/-- The members of a struct are seated, unless it reaches the end of the address space. -/
theorem seated_layout {n : DeclaredType} {bs : List MeasuredBase} {ms : List MeasuredMember}
    (hn : n.kind.isUnion = false) (hms : ∀ m ∈ ms, 0 < m.metrics.alignment)
    (hsize : (n.layout .words bs ms).size < maxWord) :
    ∀ before slot after, (n.layout .words bs ms).members = before ++ slot :: after →
      slot.Seated before := by
  intro before slot after hsplit
  have hstop := lt_of_le_of_lt (le_alignUp_words hsize) hsize
  simp only [hn, placeMembers, Bool.false_eq_true, if_false] at hstop
  simp only [DeclaredType.layout, Layout.withPadding, hn, placeMembers, Bool.false_eq_true,
    if_false] at hsplit
  have hopened : (Cursor.start (placeBases .words 0 1 bs).stop).OpenedBy [] := fun _ hu =>
    absurd hu (Cursor.unit_start _)
  exact seated_placeInOrder ms hms _ [] (Cursor.steady_start _) hopened hstop before slot after
    hsplit

/-- A layout that is found was made of metrics that the memo has. -/
theorem LayoutInput.Reached.exists_made {d : LayoutInput} {m m' : Memo} {id : TypeId} {l : Layout}
    (hm : d.Reached .words m) (hl : (d.layout? .words id).run m = (some l, m')) :
    ∃ n, d.MadeOf .words (m'.Found d) n l := by
  obtain ⟨hm', hfind, -⟩ := hm.of_layout? hl
  have hsound := (LayoutInput.Reached.inv (D := soundness d) .fresh (fun _ => trivial) hm').1
  exact hsound.made id l hfind

/-- **Where the members of a struct or class start**, whatever has been requested before it: at a
multiple of their alignment, or in the storage unit of an earlier bit-field, which starts at a
multiple of the alignment of that one. So all of them are aligned if the alignment of each bit-field
that joins a unit divides that of the bit-field which opened it. -/
theorem layout?_seated {s : Store} {m m' : Memo} {id : TypeId} {l : Layout}
    (hm : s.layoutInput.Reached .words m)
    (hl : (s.layoutInput.layout? .words id).run m = (some l, m'))
    (hkind : l.kind = .struct ∨ l.kind = .class_) (hsize : l.size < maxWord) :
    (∀ before slot after, l.members = before ++ slot :: after → slot.Seated before) ∧
    ((∀ slot ∈ l.members, ∀ t ∈ l.members, slot.Joined → t.Opens slot →
        slot.alignment ∣ t.alignment) →
      ∀ slot ∈ l.members, slot.alignment ∣ slot.offset) := by
  obtain ⟨n, bs, ms, -, hms, rfl⟩ := hm.exists_made hl
  have hunion : n.kind.isUnion = false := by
    rcases hkind with h | h
    · exact (congrArg Kind.isUnion h).trans rfl
    · exact (congrArg Kind.isUnion h).trans rfl
  have hpos : ∀ mm ∈ ms, 0 < mm.metrics.alignment := by
    intro mm hmm
    obtain ⟨m, -, hmeasured⟩ := exists_of_forall₂ hms mm hmm
    exact hmeasured.positive fun _ _ h => h.1
  have hseated : ∀ before slot after, (n.layout .words bs ms).members = before ++ slot :: after →
      slot.Seated before := seated_layout hunion hpos hsize
  refine ⟨hseated, fun hdvd slot hslot => ?_⟩
  obtain ⟨before, after, hsplit⟩ := List.append_of_mem hslot
  have hs := hseated before slot after hsplit
  by_cases hjoined : slot.Joined
  · obtain ⟨t, ht, hopens, hoffset⟩ := hs.shared hjoined
    have htl : t ∈ (n.layout .words bs ms).members := by simp [hsplit, ht]
    exact Nat.dvd_trans (hdvd slot hslot t htl hjoined hopens) hoffset
  · exact hs.alone hjoined

/-- In `flagged`, the bit-field `high` joins the storage unit that `low` opened. -/
theorem layout?_seated_flagged : ∃ l m',
    (flagged.layoutInput.layout? .words ⟨1⟩).run {} = (some l, m') ∧ l.kind = .struct ∧
      l.size = 8 ∧ l.members.map (fun s => (s.offset, s.alignment)) = [(0, 4), (0, 4), (4, 1)] ∧
      (∀ before slot after, l.members = before ++ slot :: after → slot.Seated before) ∧
      ∀ slot ∈ l.members, slot.alignment ∣ slot.offset := by
  have hrun : ((flagged.layoutInput.layout? .words ⟨1⟩).run {}).1.map
      (fun l => (l.kind, l.size, l.members)) = some (.struct, 8,
        [⟨⟨3⟩, "low", "int", 0, 4, 4, some ⟨3, 0⟩⟩, ⟨⟨5⟩, "high", "int", 0, 4, 4, some ⟨5, 3⟩⟩,
          ⟨⟨7⟩, "last", "char", 4, 1, 1, none⟩]) := by
    rw [layoutInput_flagged]
    decide +kernel
  obtain ⟨l, hl, hseen⟩ := Option.map_eq_some_iff.1 hrun
  simp only [Prod.mk.injEq] at hseen
  obtain ⟨hkind, hsize, hslots⟩ := hseen
  have hlt : l.size < maxWord := by rw [hsize]; decide
  have hseated := layout?_seated .fresh (Prod.ext hl rfl) (.inl hkind) hlt
  have hdvd : ∀ slot ∈ l.members, ∀ t ∈ l.members, slot.Joined → t.Opens slot →
      slot.alignment ∣ t.alignment := by
    -- both bit-fields are of type `int`, and the byte behind them joins nothing
    intro slot hslot t ht ⟨b, hb, _, hoffset⟩ hopens
    obtain ⟨c, hc, _, _⟩ := hopens.first
    rw [hslots] at hslot ht
    simp only [List.mem_cons, List.not_mem_nil, or_false] at hslot ht
    rcases ht with rfl | rfl | rfl
    · rcases hslot with rfl | rfl | rfl
      · exact Nat.dvd_refl 4
      · exact Nat.dvd_refl 4
      · cases hb
    · rcases hslot with rfl | rfl | rfl
      · exact Nat.dvd_refl 4
      · exact Nat.dvd_refl 4
      · cases hb
    · cases hc
  exact ⟨l, _, Prod.ext hl rfl, hkind, hsize, by rw [hslots]; rfl, hseated.1, hseated.2 hdvd⟩

/-- Behind four bytes, a storage unit is open that a bit-field of alignment eight joins. -/
def overaligned : Store :=
  [.addType { name := "S", kind := .struct },
    .addMember ⟨1⟩ { name := "x", typeString := "int", order := some 0 },
    .addMember ⟨1⟩ { name := "low", typeString := "int", order := some 1, bitWidth := some 3 },
    .addMember ⟨1⟩
      { name := "high", typeString := "int", order := some 2, bitWidth := some 5,
        alignment := some 8 }].foldl Store.perform Store.empty

/-- A bit-field that joins a unit is at an offset that is not a multiple of its alignment. -/
theorem layout?_not_aligned : overaligned.Reachable ∧ ∃ l m',
    (overaligned.layoutInput.layout? .words ⟨1⟩).run {} = (some l, m') ∧ l.kind = .struct ∧
      l.size < maxWord ∧ ¬∀ slot ∈ l.members, slot.alignment ∣ slot.offset := by
  have hordered : overaligned.Ordered := by decide +kernel
  have hrun : ((overaligned.layoutInput.layout? .words ⟨1⟩).run {}).1.map
      (fun l => (l.kind, l.size, l.members)) = some (.struct, 8,
        [⟨⟨3⟩, "x", "int", 0, 4, 4, none⟩, ⟨⟨5⟩, "low", "int", 4, 4, 4, some ⟨3, 0⟩⟩,
          ⟨⟨7⟩, "high", "int", 4, 4, 8, some ⟨5, 3⟩⟩]) := by
    rw [hordered.layoutInput_eq]
    decide +kernel
  obtain ⟨l, hl, hseen⟩ := Option.map_eq_some_iff.1 hrun
  simp only [Prod.mk.injEq] at hseen
  obtain ⟨hkind, hsize, hslots⟩ := hseen
  refine ⟨Store.leads_foldl _ _, l, _, Prod.ext hl rfl, hkind, by rw [hsize]; decide, ?_⟩
  intro haligned
  have h : 8 ∣ 4 := haligned ⟨⟨7⟩, "high", "int", 4, 4, 8, some ⟨5, 3⟩⟩ (by simp [hslots])
  omega

end DeclGraph
