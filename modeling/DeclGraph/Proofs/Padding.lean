import DeclGraph.Proofs.Alignment
import DeclGraph.Proofs.LayoutPass

/-!
# Padding

The padding of a layout is found by a sweep over the bytes that its slots record. So it is made of
just the bytes that no slot records. What a slot records is what it takes, apart from two kinds of
bit-fields: one of width zero takes nothing, but records the size of its type, and one over a type
without bytes records none of the byte that its storage unit takes.

* `holds_sweep`: the holes that a sweep finds.
* `Layout.padded_iff`: **padding is what no slot records**, of every layout.
* `layout?_padding`: a layout that is found has every byte that nothing takes in its padding, and no
  other, apart from the bytes of these bit-fields.
* `layout?_padding_not`: such bit-fields.
-/

namespace DeclGraph

open AddressSpace

/-- The byte `x` is in a hole. -/
def Hole.Holds (h : Hole) (x : Nat) : Prop := h.offset ≤ x ∧ x < h.offset + h.size

/-- The byte `x` is in an extent, which stops before its second number. -/
def InExtent (e : Nat × Nat) (x : Nat) : Prop := e.1 ≤ x ∧ x < e.2

/-! ## The sweep -/

/-- A sweep ends at the end of the extent that reaches furthest. -/
theorem lt_sweep_iff (es : List (Nat × Nat)) : ∀ reached x,
    x < (sweep reached es).2 ↔ x < reached ∨ ∃ e ∈ es, x < e.2 := by
  induction es with
  | nil => simp [sweep]
  | cons e es ih =>
    intro reached x
    have hmax : x < max reached e.2 ↔ x < reached ∨ x < e.2 := by omega
    simp only [sweep, ih, List.exists_mem_cons_iff, hmax, or_assoc]

/-- **The holes of a sweep** are made of the bytes between its start and its end that are in no
extent. -/
theorem holds_sweep {es : List (Nat × Nat)} (hsorted : es.Pairwise fun a b => a.1 ≤ b.1)
    (hordered : ∀ e ∈ es, e.1 ≤ e.2) : ∀ reached x, (∃ h ∈ (sweep reached es).1, h.Holds x) ↔
      (reached ≤ x ∧ x < (sweep reached es).2) ∧ ∀ e ∈ es, ¬InExtent e x := by
  -- on the extents, for all bytes that have been reached: the first extent moves them on
  induction es with
  | nil =>
    intro reached x
    simp only [sweep, List.not_mem_nil, false_and, exists_false, false_iff]
    omega
  | cons e es ih =>
    intro reached x
    rw [List.pairwise_cons] at hsorted
    rw [List.forall_mem_cons] at hordered
    have hrest := ih hsorted.2 hordered.2 (max reached e.2) x
    have hfirst : (∃ h ∈ (sweep reached (e :: es)).1, h.Holds x) ↔
        (reached ≤ x ∧ x < e.1) ∨ ∃ h ∈ (sweep (max reached e.2) es).1, h.Holds x := by
      simp only [sweep]
      split
      · rw [List.exists_mem_cons_iff, Hole.Holds]
        refine or_congr_left ?_
        dsimp only
        omega
      · refine ⟨.inr, fun h => h.resolve_left ?_⟩
        omega
    have hlast : x < (sweep reached (e :: es)).2 ↔ x < (sweep (max reached e.2) es).2 := Iff.rfl
    have hend := lt_sweep_iff es (max reached e.2) x
    rw [hfirst, hlast, hrest, List.forall_mem_cons]
    have hle := hordered.1
    constructor
    · rintro (⟨hreached, hlt⟩ | ⟨⟨hreached, hlt⟩, hnone⟩)
      · -- a byte before the first extent is before all others, too
        refine ⟨⟨hreached, hend.2 (.inl (by omega))⟩, fun h => ?_, fun f hf h => ?_⟩
        · have := h.1
          omega
        · have := hsorted.1 f hf
          have := h.1
          omega
      · refine ⟨⟨by omega, hlt⟩, fun h => ?_, hnone⟩
        have := h.2
        omega
    · rintro ⟨⟨hreached, hlt⟩, hout, hnone⟩
      by_cases hx : x < e.1
      · exact .inl ⟨hreached, hx⟩
      · have hstop : e.2 ≤ x := by
          by_contra hstop
          exact hout ⟨by omega, by omega⟩
        exact .inr ⟨⟨by omega, hlt⟩, hnone⟩

/-- **The holes of a layout** are made of the bytes before its end, or before that of an extent,
that are in no extent. -/
theorem Layout.holds_holes {space : AddressSpace} {l : Layout}
    (hordered : ∀ e ∈ l.extents space, e.1 ≤ e.2) (x : Nat) :
    (∃ h ∈ l.holes space, h.Holds x) ↔
      (x < l.size ∨ ∃ e ∈ l.extents space, x < e.2) ∧ ∀ e ∈ l.extents space, ¬InExtent e x := by
  have hmem : ∀ e, e ∈ (l.extents space).mergeSort pairLe ↔ e ∈ l.extents space := fun e =>
    List.mem_mergeSort
  have hsorted : ((l.extents space).mergeSort pairLe).Pairwise fun a b => a.1 ≤ b.1 := by
    refine (List.pairwise_mergeSort pairLe_trans pairLe_total _).imp fun {a b} hab => ?_
    rw [pairLe_iff] at hab
    omega
  have hsweep := holds_sweep hsorted (fun e he => hordered e ((hmem e).1 he)) 0 x
  have hlast := lt_sweep_iff ((l.extents space).mergeSort pairLe) 0 x
  simp only [hmem, Nat.zero_le, true_and, Nat.not_lt_zero, false_or] at hsweep hlast
  simp only [holes]
  split
  · next hshort =>
    -- what is behind the last extent is a hole of its own
    have htail : ∀ hole : Hole, (∃ h ∈ (sweep 0 ((l.extents space).mergeSort pairLe)).1 ++ [hole],
        h.Holds x) ↔
          (∃ h ∈ (sweep 0 ((l.extents space).mergeSort pairLe)).1, h.Holds x) ∨ hole.Holds x := by
      simp only [List.mem_append, List.mem_singleton, or_and_right, exists_or, exists_eq_left,
        implies_true]
    rw [htail, hsweep, Hole.Holds]
    dsimp only
    constructor
    · rintro (⟨hreached, hnone⟩ | hbehind)
      · exact ⟨.inr (hlast.1 hreached), hnone⟩
      · refine ⟨.inl (by omega), fun e he hin => ?_⟩
        have := hlast.2 ⟨e, he, hin.2⟩
        omega
    · rintro ⟨hx, hnone⟩
      by_cases hreached : x < (sweep 0 ((l.extents space).mergeSort pairLe)).2
      · exact .inl ⟨hreached, hnone⟩
      · have := hx.resolve_right (mt hlast.2 hreached)
        right
        omega
  · rw [hsweep]
    refine and_congr_left fun hnone => ⟨fun hreached => .inr (hlast.1 hreached), fun hx => ?_⟩
    rcases hx with hx | hx
    · omega
    · exact hlast.2 hx

/-! ## Bytes of slots -/

/-- The byte `x` is one of the base. -/
def BaseSlot.Takes (s : BaseSlot) (x : Nat) : Prop := s.offset ≤ x ∧ x < s.offset + s.size

/-- The byte `x` is one of those that the slot records. -/
def MemberSlot.Records (s : MemberSlot) (x : Nat) : Prop := s.offset ≤ x ∧ x < s.offset + s.size

/-- The byte `x` is one of those that the slot takes: for a bit-field those of its storage unit, and
none if it has width zero. -/
def MemberSlot.Takes (s : MemberSlot) (x : Nat) : Prop :=
  s.piece.offset ≤ x ∧ x < s.piece.stop

instance (s : BaseSlot) (x : Nat) : Decidable (s.Takes x) :=
  inferInstanceAs (Decidable (_ ∧ _))

instance (s : MemberSlot) (x : Nat) : Decidable (s.Records x) :=
  inferInstanceAs (Decidable (_ ∧ _))

instance (s : MemberSlot) (x : Nat) : Decidable (s.Takes x) :=
  inferInstanceAs (Decidable (_ ∧ _))

/-- What a slot records of a byte is not what it takes of it: it is that of a bit-field of width
zero, or of one over a type without bytes. -/
inductive MemberSlot.Misrecords (s : MemberSlot) (x : Nat) : Prop
  | mark {b : BitRange} (hb : s.bits = some b) (hw : b.width = 0) (h : s.Records x)
  | bare {b : BitRange} (hb : s.bits = some b) (hw : b.width ≠ 0) (hsize : s.size = 0)
    (h : x = s.offset)

theorem MemberSlot.records_iff {s : MemberSlot} {x : Nat} (h : ¬s.Misrecords x) :
    s.Records x ↔ s.Takes x := by
  unfold Takes piece
  cases hb : s.bits with
  | none => exact Iff.rfl
  | some b =>
    by_cases hw : b.width = 0
    · simp only [hw, if_true]
      refine ⟨fun hx => absurd (.mark hb hw hx) h, ?_⟩
      omega
    · simp only [hw, if_false, Records]
      have hbare : s.size = 0 → x ≠ s.offset := fun hsize hx => h (.bare hb hw hsize hx)
      omega

namespace Layout

variable (l : Layout) (x : Nat)

/-- The byte `x` is in the padding. -/
def Padded : Prop := ∃ h ∈ l.padding, h.Holds x

/-- The byte `x` is one of those that the slots record. -/
def Recorded : Prop := (∃ b ∈ l.bases, b.Takes x) ∨ ∃ s ∈ l.members, s.Records x

/-- The byte `x` is one of those that the slots take. -/
def Used : Prop := (∃ b ∈ l.bases, b.Takes x) ∨ ∃ s ∈ l.members, s.Takes x

variable {l x}

/-- No extent stops before it starts, if nothing starts beyond the last word. -/
theorem le_of_mem_extents (hfits : l.Fits) (hbases : ∀ b ∈ l.bases, b.offset ≤ maxWord) :
    ∀ e ∈ l.extents .words, e.1 ≤ e.2 := by
  intro e he
  rcases List.mem_append.1 he with he | he
  · obtain ⟨b, hb, rfl⟩ := List.mem_map.1 he
    exact le_min (Nat.le_add_right _ _) (hbases b hb)
  · obtain ⟨s, hs, rfl⟩ := List.mem_map.1 he
    exact le_min (Nat.le_add_right _ _) (hfits.offset s hs)

/-- **Padding is what no slot records**, if nothing is beyond the last word. -/
theorem padded_iff (hpadding : l.padding = l.holes .words) (hfits : l.Fits)
    (hbases : ∀ b ∈ l.bases, b.offset ≤ maxWord) (hx : x < l.size) :
    l.Padded x ↔ ¬l.Recorded x := by
  have hword : x < maxWord := Nat.lt_of_lt_of_le hx hfits.size
  -- a byte before the end of the layout does not see where words end
  have hstop : ∀ n, x < words.clamp n ↔ x < n := by
    intro n
    rw [clamp_words]
    omega
  rw [Padded, hpadding, holds_holes (le_of_mem_extents hfits hbases), Recorded, not_or]
  simp only [hx, true_or, true_and, extents, List.forall_mem_append, List.forall_mem_map, InExtent,
    BaseSlot.stop, MemberSlot.stop, hstop, BaseSlot.Takes, MemberSlot.Records, not_exists, not_and]

end Layout

/-! ## Layouts that are found -/

theorem offset_placeBases_le (bs : List MeasuredBase) : ∀ {offset : Nat}, offset ≤ maxWord →
    ∀ alignment, ∀ b ∈ (placeBases .words offset alignment bs).slots, b.offset ≤ maxWord := by
  induction bs with
  | nil => exact fun _ _ _ hb => by cases hb
  | cons b bs ih =>
    intro offset h alignment slot hslot
    rcases List.mem_cons.1 hslot with rfl | hslot
    · exact alignUp_words_le h _
    · exact ih (clamp_words_le _) _ slot hslot

theorem padded_layout?_iff {s : Store} {m m' : Memo} {id : TypeId} {l : Layout}
    (hm : s.layoutInput.Reached .words m)
    (hl : (s.layoutInput.layout? .words id).run m = (some l, m')) {x : Nat} (hx : x < l.size) :
    l.Padded x ↔ ¬l.Recorded x := by
  obtain ⟨n, bs, ms, -, -, rfl⟩ := hm.exists_made hl
  have hbases : ∀ b ∈ (n.layout .words bs ms).bases, b.offset ≤ maxWord :=
    offset_placeBases_le bs (Nat.zero_le _) 1
  exact Layout.padded_iff rfl (n.fits_layout bs ms) hbases hx

/-- **The padding of a layout**, whatever has been requested before it: just the bytes that no slot
records. So it is just the bytes that nothing takes, apart from those of bit-fields which do not
record what they take. -/
theorem layout?_padding {s : Store} {m m' : Memo} {id : TypeId} {l : Layout}
    (hm : s.layoutInput.Reached .words m)
    (hl : (s.layoutInput.layout? .words id).run m = (some l, m')) :
    ∀ x < l.size, (l.Padded x ↔ ¬l.Recorded x) ∧
      ((∀ slot ∈ l.members, ¬slot.Misrecords x) → (l.Padded x ↔ ¬l.Used x)) := by
  intro x hx
  have hpadded := padded_layout?_iff hm hl hx
  refine ⟨hpadded, fun hslots => ?_⟩
  rw [hpadded, Layout.Recorded, Layout.Used]
  refine not_congr (or_congr_right (exists_congr fun slot => and_congr_right fun hslot => ?_))
  exact MemberSlot.records_iff (hslots slot hslot)

/-- A bit-field of width zero behind a byte, and one over a type without bytes at the end. -/
def pinched : Store :=
  [.addType { name := "S", kind := .struct },
    .addMember ⟨1⟩ { name := "a", typeString := "char", order := some 0 },
    .addMember ⟨1⟩ { name := "z", typeString := "int", order := some 1, bitWidth := some 0 },
    .addMember ⟨1⟩ { name := "b", typeString := "char", order := some 2 },
    .addMember ⟨1⟩ { name := "c", typeString := "int", order := some 3 },
    .addMember ⟨1⟩ { name := "v", typeString := "void", order := some 4, bitWidth := some 3 }].foldl
      Store.perform Store.empty

theorem exists_layout_pinched : ∃ l m',
    (pinched.layoutInput.layout? .words ⟨1⟩).run {} = (some l, m') ∧ l.kind = .struct ∧
      l.size = 16 ∧ l.bases = [] ∧ l.members =
        [⟨⟨3⟩, "a", "char", 0, 1, 1, none⟩, ⟨⟨5⟩, "z", "int", 4, 4, 4, some ⟨0, 0⟩⟩,
          ⟨⟨7⟩, "b", "char", 4, 1, 1, none⟩, ⟨⟨9⟩, "c", "int", 8, 4, 4, none⟩,
          ⟨⟨11⟩, "v", "void", 12, 0, 1, some ⟨3, 0⟩⟩] := by
  have hordered : pinched.Ordered := by decide +kernel
  have hrun : ((pinched.layoutInput.layout? .words ⟨1⟩).run {}).1.map
      (fun l => (l.kind, l.size, l.bases, l.members)) = some (.struct, 16, [],
        [⟨⟨3⟩, "a", "char", 0, 1, 1, none⟩, ⟨⟨5⟩, "z", "int", 4, 4, 4, some ⟨0, 0⟩⟩,
          ⟨⟨7⟩, "b", "char", 4, 1, 1, none⟩, ⟨⟨9⟩, "c", "int", 8, 4, 4, none⟩,
          ⟨⟨11⟩, "v", "void", 12, 0, 1, some ⟨3, 0⟩⟩]) := by
    rw [hordered.layoutInput_eq]
    decide +kernel
  obtain ⟨l, hl, hseen⟩ := Option.map_eq_some_iff.1 hrun
  simp only [Prod.mk.injEq] at hseen
  exact ⟨l, _, Prod.ext hl rfl, hseen⟩

/-- In `pinched`, the bytes behind `a` are padding, since both bit-fields are further on. -/
theorem layout?_padding_pinched : ∃ l m',
    (pinched.layoutInput.layout? .words ⟨1⟩).run {} = (some l, m') ∧ 2 < l.size ∧
      (∀ slot ∈ l.members, ¬slot.Misrecords 2) ∧ (l.Padded 2 ↔ ¬l.Used 2) ∧ l.Padded 2 := by
  obtain ⟨l, m', hl, -, hsize, hbases, hslots⟩ := exists_layout_pinched
  have hrecords : ∀ slot ∈ l.members, ¬slot.Misrecords 2 := by
    have hbits : ∀ slot ∈ l.members, slot.bits ≠ none → 4 ≤ slot.offset := by
      rw [hslots]
      decide
    intro slot hslot h
    cases h with
    | mark hb _ h =>
      have hle := hbits slot hslot (by simp [hb])
      exact absurd h.1 (by omega)
    | bare hb _ _ h =>
      have hle := hbits slot hslot (by simp [hb])
      omega
  have hpadded := layout?_padding .fresh hl 2 (by omega)
  have hunrecorded : ¬l.Recorded 2 := by
    rw [Layout.Recorded, hbases, hslots]
    decide
  exact ⟨l, m', hl, by omega, hrecords, hpadded.2 hrecords, hpadded.1.2 hunrecorded⟩

/-- Nothing takes the bytes behind `b`, but a bit-field of width zero records them. -/
theorem layout?_padding_not : pinched.Reachable ∧ ∃ l m',
    (pinched.layoutInput.layout? .words ⟨1⟩).run {} = (some l, m') ∧ l.kind = .struct ∧
      l.size < maxWord ∧ ¬∀ x < l.size, l.Padded x ↔ ¬l.Used x := by
  obtain ⟨l, m', hl, hkind, hsize, hbases, hslots⟩ := exists_layout_pinched
  refine ⟨Store.leads_foldl _ _, l, m', hl, hkind, by rw [hsize]; decide, fun h => ?_⟩
  have hunused : ¬l.Used 5 := by
    rw [Layout.Used, hbases, hslots]
    decide
  have hrecorded : l.Recorded 5 := by
    rw [Layout.Recorded, hbases, hslots]
    decide
  exact (padded_layout?_iff .fresh hl (by omega)).1 ((h 5 (by omega)).2 hunused) hrecorded

end DeclGraph
