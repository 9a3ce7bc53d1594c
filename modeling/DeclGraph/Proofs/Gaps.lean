import Mathlib.Data.List.Sort
import DeclGraph.Proofs.Padding

/-!
# Gaps between slots

Padding can be found for any slots. They may overlap, come in any order, be empty, lie behind the
end of the layout, or reach the end of the address space; what counts is which bytes they cover.

* `Layout.gaps`: the bytes that no slot covers, up to the end of the layout or of the slot that
  reaches furthest.
* `before_sweep`: each hole of a sweep ends before the next one starts.
* `Layout.Exact`: the holes are made of the gaps, each byte once, and all numbers are words.
* `Layout.padding_exact`: **the padding of every layout is exact**, and it depends neither on the
  order of the slots nor on the padding that was there.
-/

namespace DeclGraph

open AddressSpace

/-- The bytes of a hole in order. -/
def Hole.bytes (h : Hole) : List Nat := List.range' h.offset h.size

/-- A hole ends before another one starts. -/
def Hole.Before (g h : Hole) : Prop := g.offset + g.size ≤ h.offset

theorem Hole.mem_bytes {h : Hole} {x : Nat} : x ∈ h.bytes ↔ h.Holds x := List.mem_range'_1

/-- Extents in any order are sorted alike. -/
theorem mergeSort_eq_of_perm {es fs : List (Nat × Nat)} (h : es.Perm fs) :
    es.mergeSort pairLe = fs.mergeSort pairLe := by
  refine List.Perm.eq_of_pairwise (fun a b _ _ hab hba => pairLe_antisymm hab hba)
    (List.pairwise_mergeSort pairLe_trans pairLe_total _)
    (List.pairwise_mergeSort pairLe_trans pairLe_total _) ?_
  exact ((List.mergeSort_perm _ _).trans h).trans (List.mergeSort_perm _ _).symm

/-! ## The holes of a sweep -/

theorem le_sweep (es : List (Nat × Nat)) (reached : Nat) : reached ≤ (sweep reached es).2 := by
  by_contra h
  have hlast := lt_sweep_iff es reached (sweep reached es).2
  exact absurd (hlast.2 (.inl (by omega))) (Nat.lt_irrefl _)

/-- A sweep finds holes that are not empty, between its start and its end. -/
theorem bounds_sweep {es : List (Nat × Nat)} (hordered : ∀ e ∈ es, e.1 ≤ e.2) : ∀ reached,
    ∀ h ∈ (sweep reached es).1, reached ≤ h.offset ∧ 0 < h.size ∧
      h.offset + h.size ≤ (sweep reached es).2 := by
  induction es with
  | nil => exact fun _ _ hh => by cases hh
  | cons e es ih =>
    intro reached h hh
    rw [List.forall_mem_cons] at hordered
    have hle := hordered.1
    have hlast := le_sweep es (max reached e.2)
    have hrest := ih hordered.2 (max reached e.2) h
    simp only [sweep] at hh ⊢
    split at hh
    · rcases List.mem_cons.1 hh with rfl | hh
      · dsimp only
        omega
      · have := hrest hh
        omega
    · have := hrest hh
      omega

/-- **Each hole of a sweep ends before the next one starts.** -/
theorem before_sweep {es : List (Nat × Nat)} (hordered : ∀ e ∈ es, e.1 ≤ e.2) : ∀ reached,
    (sweep reached es).1.Pairwise Hole.Before := by
  induction es with
  | nil => exact fun _ => .nil
  | cons e es ih =>
    intro reached
    rw [List.forall_mem_cons] at hordered
    have hrest := ih hordered.2 (max reached e.2)
    simp only [sweep]
    split
    · refine .cons (fun h hh => ?_) hrest
      have hstart := (bounds_sweep hordered.2 _ h hh).1
      have hle := hordered.1
      rw [Hole.Before]
      dsimp only
      omega
    · exact hrest

namespace Layout

section Holes

variable {space : AddressSpace} {l : Layout} (hordered : ∀ e ∈ l.extents space, e.1 ≤ e.2)

include hordered

/-- The holes of a layout are not empty, and each of them ends before the next one starts. -/
theorem before_holes :
    (∀ h ∈ l.holes space, 0 < h.size) ∧ (l.holes space).Pairwise Hole.Before := by
  have hsorted : ∀ e ∈ (l.extents space).mergeSort pairLe, e.1 ≤ e.2 := fun e he =>
    hordered e (List.mem_mergeSort.1 he)
  have hbounds := bounds_sweep hsorted 0
  have hbefore := before_sweep hsorted 0
  simp only [holes]
  split
  · refine ⟨fun h hh => ?_, List.pairwise_append.2 ⟨hbefore, List.pairwise_singleton _ _, ?_⟩⟩
    · rcases List.mem_append.1 hh with hh | hh
      · exact (hbounds h hh).2.1
      · obtain rfl := List.mem_singleton.1 hh
        exact Nat.sub_pos_of_lt ‹_›
    · intro g hg h hh
      obtain rfl := List.mem_singleton.1 hh
      exact (hbounds g hg).2.2
  · exact ⟨fun h hh => (hbounds h hh).2.1, hbefore⟩

end Holes

/-- The holes depend on the extents alone, in whatever order these come. -/
theorem holes_eq_of_perm {space : AddressSpace} {l l₂ : Layout} (hsize : l₂.size = l.size)
    (hextents : (l₂.extents space).Perm (l.extents space)) : l₂.holes space = l.holes space := by
  simp only [holes, mergeSort_eq_of_perm hextents, hsize]

/-! ## Gaps -/

variable (l : Layout)

/-- A slot covers the byte `x`: it starts there or before, and ends behind it. No slot ends behind
the last word. -/
def Covers (x : Nat) : Prop :=
  (∃ b ∈ l.bases, b.offset ≤ x ∧ x < min (b.offset + b.size) maxWord) ∨
    ∃ s ∈ l.members, s.offset ≤ x ∧ x < min (s.offset + s.size) maxWord

instance (x : Nat) : Decidable (l.Covers x) := inferInstanceAs (Decidable (_ ∨ _))

/-- The end of the layout, or of the slot that reaches furthest. -/
def reach : Nat :=
  (l.bases.map (fun b => min (b.offset + b.size) maxWord) ++
    l.members.map fun s => min (s.offset + s.size) maxWord).foldr max l.size

/-- The bytes up to there that no slot covers, in order. -/
def gaps : List Nat := (List.range l.reach).filter fun x => ¬l.Covers x

/-- **The padding of a layout is exact**: its holes are made of the gaps, each byte once. -/
structure Exact : Prop where
  nonempty : ∀ h ∈ l.padding, 0 < h.size
  ordered : l.padding.Pairwise Hole.Before
  bytes : ∀ x, l.Padded x ↔ x ∈ l.gaps
  /-- The sizes of the holes add up to a word, so nothing is lost in the total. -/
  counted : (l.padding.map Hole.size).foldr (· + ·) 0 ≤ maxWord
  total : l.totalPadding = l.gaps.length
  within : ∀ h ∈ l.padding, h.offset + h.size ≤ maxWord

variable {l}

theorem mem_gaps {x : Nat} : x ∈ l.gaps ↔ x < l.reach ∧ ¬l.Covers x := by
  rw [gaps, List.mem_filter, List.mem_range, decide_eq_true_iff]

theorem covers_iff {x : Nat} : l.Covers x ↔ ∃ e ∈ l.extents .words, InExtent e x := by
  simp only [Covers, extents, List.mem_append, List.mem_map, or_and_right, exists_or,
    exists_exists_and_eq_and, InExtent, BaseSlot.stop, MemberSlot.stop, clamp_words]

theorem lt_reach_iff {x : Nat} :
    x < l.reach ↔ x < l.size ∨ ∃ e ∈ l.extents .words, x < e.2 := by
  have hfold : ∀ ks : List Nat, x < ks.foldr max l.size ↔ x < l.size ∨ ∃ k ∈ ks, x < k := by
    intro ks
    induction ks with
    | nil => simp
    | cons k ks ih =>
      have hmax : x < max k (ks.foldr max l.size) ↔ x < k ∨ x < ks.foldr max l.size := by omega
      rw [List.foldr_cons, hmax, ih, List.exists_mem_cons_iff, or_left_comm]
  have hstops : l.bases.map (fun b => min (b.offset + b.size) maxWord) ++
      l.members.map (fun s => min (s.offset + s.size) maxWord) =
      (l.extents .words).map Prod.snd := by
    rw [extents, List.map_append, List.map_map, List.map_map]
    rfl
  rw [reach, hfold, hstops]
  simp only [List.mem_map, exists_exists_and_eq_and]

theorem reach_le (hsize : l.size ≤ maxWord) : l.reach ≤ maxWord := by
  by_contra h
  rcases lt_reach_iff.1 (Nat.lt_of_not_le h) with hlt | ⟨e, he, hlt⟩
  · omega
  · rcases List.mem_append.1 he with he | he
    · obtain ⟨b, -, rfl⟩ := List.mem_map.1 he
      exact absurd (min_le_right _ _) (Nat.not_le.2 hlt)
    · obtain ⟨s, -, rfl⟩ := List.mem_map.1 he
      exact absurd (min_le_right _ _) (Nat.not_le.2 hlt)

/-- Holes that are made of the gaps, one behind the other, have as many bytes as there are gaps. -/
theorem bytes_eq_gaps (hordered : l.padding.Pairwise Hole.Before)
    (hbytes : ∀ x, l.Padded x ↔ x ∈ l.gaps) : l.padding.flatMap Hole.bytes = l.gaps := by
  have hsorted : (l.padding.flatMap Hole.bytes).Pairwise (· < ·) := by
    refine List.pairwise_flatMap.2 ⟨fun h _ => List.pairwise_lt_range', ?_⟩
    refine hordered.imp fun {g h} hgh x hx y hy => ?_
    rw [Hole.mem_bytes, Hole.Holds] at hx hy
    rw [Hole.Before] at hgh
    omega
  have hgaps : l.gaps.Pairwise (· < ·) := List.pairwise_lt_range.filter _
  refine hsorted.sortedLT.eq_of_mem_iff hgaps.sortedLT fun x => ?_
  rw [← hbytes, Padded, List.mem_flatMap]
  simp only [Hole.mem_bytes]

/-- The sizes of such holes add up to the number of gaps. -/
theorem sum_sizes_eq (hordered : l.padding.Pairwise Hole.Before)
    (hbytes : ∀ x, l.Padded x ↔ x ∈ l.gaps) :
    (l.padding.map Hole.size).foldr (· + ·) 0 = l.gaps.length := by
  rw [← bytes_eq_gaps hordered hbytes, List.length_flatMap, List.sum_eq_foldr]
  congr 1
  exact List.map_congr_left fun h _ => List.length_range'.symm

theorem length_gaps_le (hsize : l.size ≤ maxWord) : l.gaps.length ≤ maxWord :=
  calc l.gaps.length
      ≤ (List.range l.reach).length := List.length_filter_le _ _
    _ = l.reach := List.length_range
    _ ≤ maxWord := reach_le hsize

/-- **The padding of every layout is exact**, whichever slots it has, as long as all numbers are
words. It is the same in every order of the slots, and whatever padding there was before. -/
theorem padding_exact (hfits : l.Fits) (hbases : ∀ b ∈ l.bases, b.offset ≤ maxWord) :
    (l.withPadding .words).Exact ∧
      ∀ l₂ : Layout, l₂.size = l.size → l₂.bases.Perm l.bases → l₂.members.Perm l.members →
        (l₂.withPadding .words).padding = (l.withPadding .words).padding := by
  have hextents := le_of_mem_extents hfits hbases
  obtain ⟨hnonempty, hbefore⟩ := before_holes hextents
  have hbytes : ∀ x, (l.withPadding .words).Padded x ↔ x ∈ (l.withPadding .words).gaps := by
    intro x
    have hholes := holds_holes hextents x
    rw [← lt_reach_iff] at hholes
    rw [mem_gaps, covers_iff, not_exists]
    simp only [not_and]
    exact hholes
  have hlength := sum_sizes_eq hbefore hbytes
  have hcount : (l.withPadding .words).gaps.length ≤ maxWord := length_gaps_le hfits.size
  refine ⟨⟨hnonempty, hbefore, hbytes, hlength ▸ hcount, ?_, fun h hh => ?_⟩, ?_⟩
  · rw [totalPadding, hlength, Nat.min_eq_left hcount]
  · -- the last byte of a hole is a gap
    have hpos := hnonempty h hh
    have hlast := ((hbytes (h.offset + h.size - 1)).1 ⟨h, hh, by omega, by omega⟩)
    have hreach : h.offset + h.size - 1 < l.reach := (mem_gaps.1 hlast).1
    have := reach_le hfits.size
    omega
  · intro l₂ hsize hbases₂ hmembers
    exact holes_eq_of_perm hsize ((hbases₂.map _).append (hmembers.map _))

end Layout

/-- Two bases that overlap, a byte inside of both, two members at one place, an empty one, one
behind the end and one at the end of the address space, in no order. -/
def scattered : Layout :=
  { typeId := ⟨1⟩
    name := "S"
    kind := .struct
    size := 16
    bases := [⟨"B", ⟨2⟩, 6, 4⟩, ⟨"A", ⟨3⟩, 2, 6⟩]
    members := [⟨⟨4⟩, "behind", "int", 20, 4, 4, none⟩, ⟨⟨5⟩, "inside", "char", 7, 1, 1, none⟩,
      ⟨⟨6⟩, "empty", "void", 12, 0, 1, none⟩, ⟨⟨7⟩, "first", "char", 0, 1, 1, none⟩,
      ⟨⟨8⟩, "again", "char", 0, 1, 1, none⟩, ⟨⟨9⟩, "last", "int[25]", 4294967292, 100, 4, none⟩]
    padding := [⟨0, 5⟩] }

/-- The slots of `scattered` the other way round, without its padding. -/
def rearranged : Layout :=
  { scattered with
    bases := scattered.bases.reverse
    members := scattered.members.reverse
    padding := [] }

theorem Layout.padding_exact_scattered :
    scattered.Fits ∧ (∀ b ∈ scattered.bases, b.offset ≤ maxWord) ∧
      (scattered.withPadding .words).Exact ∧
      (scattered.withPadding .words).padding = [⟨1, 1⟩, ⟨10, 2⟩, ⟨12, 8⟩, ⟨24, 4294967268⟩] ∧
      (rearranged.withPadding .words).padding = (scattered.withPadding .words).padding := by
  have hfits : scattered.Fits := ⟨by decide, by decide⟩
  have hbases : ∀ b ∈ scattered.bases, b.offset ≤ maxWord := by decide
  obtain ⟨hexact, hsame⟩ := padding_exact hfits hbases
  have hperm : (scattered.extents .words).Perm [(0, 1), (0, 1), (2, 8), (6, 10), (7, 8), (12, 12),
      (20, 24), (4294967292, 4294967295)] := by decide
  have hsorted := (mergeSort_eq_of_perm hperm).trans (List.mergeSort_of_pairwise (by decide))
  have hholes : scattered.holes .words = [⟨1, 1⟩, ⟨10, 2⟩, ⟨12, 8⟩, ⟨24, 4294967268⟩] := by
    rw [holes, hsorted]
    rfl
  exact ⟨hfits, hbases, hexact, hholes,
    hsame rearranged rfl (List.reverse_perm _) (List.reverse_perm _)⟩

end DeclGraph
