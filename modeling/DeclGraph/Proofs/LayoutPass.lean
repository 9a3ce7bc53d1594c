import DeclGraph.Proofs.Bookkeeping
import DeclGraph.Proofs.Independence

/-!
# The layout pass

The pass lays out every aggregate, whether it contains itself or not, and writes what it finds of
those that are not ignored. Nothing of it can be refused: what is written concerns types and members
that are there.

* `Layout.Fits`: sizes and offsets are words, so nothing is lost when they are written.
* `Store.layoutOf?`: the layout of a type that the pass finds.
* `Store.Sound.items`: **every aggregate has a layout**, and the pass lists them in order.
* `Store.LaidOut`: what the pass changes.
* `layout_pass`: the pass succeeds, changes just that, and finds nothing to change the next time.
-/

namespace DeclGraph

open AddressSpace

/-! ## Sizes and offsets are words -/

/-- The size and the offsets of a layout are words. -/
structure Layout.Fits (l : Layout) : Prop where
  size : l.size ≤ maxWord
  offset : ∀ slot ∈ l.members, slot.offset ≤ maxWord

theorem toNat_clampWord_of_le {n : Nat} (h : n ≤ maxWord) : (clampWord n).toNat = n := by
  rw [toNat_clampWord, Nat.min_eq_left h]

theorem clamp_words_le (n : Nat) : words.clamp n ≤ maxWord := by
  rw [clamp_words]
  exact Nat.min_le_right _ _

theorem alignUp_words_le {offset : Nat} (h : offset ≤ maxWord) (alignment : Nat) :
    words.alignUp offset alignment ≤ maxWord := by
  unfold alignUp
  split
  · exact h
  · split
    · exact h
    · exact clamp_words_le _

theorem stop_placeBases_le (bs : List MeasuredBase) : ∀ {offset : Nat}, offset ≤ maxWord →
    ∀ alignment, (placeBases .words offset alignment bs).stop ≤ maxWord := by
  induction bs with
  | nil => exact fun h _ => h
  | cons b bs ih => exact fun _ _ => ih (clamp_words_le _) _

theorem Cursor.stop_words_le {c : Cursor} (h : c.offset ≤ maxWord) : c.stop .words ≤ maxWord := by
  unfold Cursor.stop
  split
  · exact max_le h (clamp_words_le _)
  · exact h

/-- A member starts at a word, and the cursor moves to another one. -/
theorem Cursor.Places.offset_le {c c' : Cursor} {m : Metrics} {width : Option Nat} {p : Placement}
    (hp : c.Places m width c' p) (hc : c.Steady) (h : c.offset ≤ maxWord) :
    p.offset ≤ maxWord ∧ c'.offset ≤ maxWord := by
  have halign := alignUp_words_le (c.stop_words_le h) m.alignment
  cases hp with
  | whole a => exact ⟨halign, clamp_words_le _⟩
  | mark a => exact ⟨halign, halign⟩
  | opened hw a => exact ⟨halign, halign⟩
  | joined hw hu hfits a => exact ⟨(hc _ hu).symm ▸ h, h⟩

theorem offset_placeInOrder_le (ms : List MeasuredMember) : ∀ {c : Cursor}, c.Steady →
    c.offset ≤ maxWord → (placeInOrder .words c ms).stop ≤ maxWord ∧
      ∀ slot ∈ (placeInOrder .words c ms).slots, slot.offset ≤ maxWord := by
  induction ms with
  | nil => exact fun _ h => ⟨Cursor.stop_words_le h, by simp [placeInOrder]⟩
  | cons m ms ih =>
    intro c hc h
    have hplaces := c.places m.width m.metrics
    obtain ⟨hoffset, hnext⟩ := hplaces.offset_le hc h
    obtain ⟨hstop, hslots⟩ := ih (hplaces.steady hc) hnext
    refine ⟨hstop, fun slot hslot => ?_⟩
    rcases List.mem_cons.1 hslot with rfl | hslot
    · exact hoffset
    · exact hslots slot hslot

theorem offset_placeTogether_le {start : Nat} (hstart : start ≤ maxWord)
    (ms : List MeasuredMember) : ∀ {stop : Nat} (alignment : Nat), stop ≤ maxWord →
      (placeTogether .words start stop alignment ms).stop ≤ maxWord ∧
        ∀ slot ∈ (placeTogether .words start stop alignment ms).slots, slot.offset ≤ maxWord := by
  induction ms with
  | nil => exact fun _ h => ⟨h, by simp [placeTogether]⟩
  | cons m ms ih =>
    intro stop alignment h
    obtain ⟨hstop, hslots⟩ :=
      ih (max alignment m.metrics.alignment) (max_le h (clamp_words_le (start + m.metrics.size)))
    refine ⟨hstop, fun slot hslot => ?_⟩
    rcases List.mem_cons.1 hslot with rfl | hslot
    · exact hstart
    · exact hslots slot hslot

/-- **Nothing in a layout is beyond the last word.** -/
theorem DeclaredType.fits_layout (n : DeclaredType) (bs : List MeasuredBase)
    (ms : List MeasuredMember) : (n.layout .words bs ms).Fits := by
  have hbases : (placeBases .words 0 1 bs).stop ≤ maxWord :=
    stop_placeBases_le bs (Nat.zero_le _) 1
  have hplaced : (placeMembers .words n.kind.isUnion (placeBases .words 0 1 bs).stop ms).stop ≤
        maxWord ∧
      ∀ slot ∈ (placeMembers .words n.kind.isUnion (placeBases .words 0 1 bs).stop ms).slots,
        slot.offset ≤ maxWord := by
    unfold placeMembers
    split
    · exact offset_placeTogether_le hbases ms 1 hbases
    · have hsteady := Cursor.steady_start (placeBases .words 0 1 bs).stop
      exact offset_placeInOrder_le ms hsteady hbases
  exact ⟨alignUp_words_le hplaced.1 _, hplaced.2⟩

/-! ## The layouts that a pass finds -/

theorem forall₂_trans {α β γ : Type} {R : α → β → Prop} {S : β → γ → Prop} {T : α → γ → Prop}
    (hT : ∀ a b c, R a b → S b c → T a c) {as : List α} {bs : List β} {cs : List γ}
    (h : List.Forall₂ R as bs) (h' : List.Forall₂ S bs cs) : List.Forall₂ T as cs := by
  induction h generalizing cs with
  | nil => cases h'; exact .nil
  | cons hab _ ih =>
    cases h' with
    | cons hbc hrest => exact .cons (hT _ _ _ hab hbc) (ih hrest)

/-- What is known after the first aggregate is what a request for its layout leaves. -/
theorem LayoutInput.memo_layItems_cons (d : LayoutInput) (m : Memo) (n : DeclaredType)
    (ns : List DeclaredType) : (d.layItems m (n :: ns)).2 =
      (d.layItems (d.serve .words { m with notes := [] } (.layout n.id)) ns).2 := by
  simp only [layItems, LayoutM.collecting, serve]
  generalize (d.layout? .words n.id).run { m with notes := [] } = found
  obtain ⟨_ | l, m'⟩ := found <;> rfl

/-- Aggregates are laid out in order, and what has been laid out stays so. -/
theorem LayoutInput.Reached.layItems {d : LayoutInput} (hd : d.Distinct) (ns : List DeclaredType)
    (hns : ∀ n ∈ ns, d.types.find? n.id = some n ∧ n.isAggregate = true) :
    ∀ {m : Memo}, d.Reached .words m → d.Reached .words (d.layItems m ns).2 ∧
      (∀ id l, m.layouts.find? id = some l → (d.layItems m ns).2.layouts.find? id = some l) ∧
      List.Forall₂ (fun (n : DeclaredType) (i : LayoutItem) => i.isIgnored = n.isIgnored ∧
        (d.layItems m ns).2.layouts.find? n.id = some i.layout) ns (d.layItems m ns).1 := by
  induction ns with
  | nil => exact fun hm => ⟨hm, fun _ _ hl => hl, .nil⟩
  | cons n ns ih =>
    intro m hm
    rw [List.forall_mem_cons] at hns
    have hclean : d.Reached .words { m with notes := [] } := hm.taken
    obtain ⟨l, m', hrun, hfind, -⟩ := hclean.exists_layout hd hns.1.1 hns.1.2
    have hserve : d.serve .words { m with notes := [] } (.layout n.id) = m' := by
      rw [LayoutInput.serve, hrun]
    have hm' : d.Reached .words m' := hserve ▸ hclean.serve (.layout n.id)
    have hcarries : ({ m with notes := [] } : Memo).Carries d m' := by
      have henough : ∀ id, (bookkeeping .words hd).enough d.depth [] id := fun _ =>
        Nat.lt_succ_self _
      exact hserve ▸ (serve_keeps henough (.layout n.id) (hclean.booked hd)).2
    have hidle : m.active = [] := (hm.booked hd).2
    obtain ⟨hreached, hkept, hitems⟩ := ih hns.2 hm'
    have hstep : d.layItems m (n :: ns) =
        (⟨l, n.isIgnored, m'.notes.reverse⟩ :: (d.layItems m' ns).1, (d.layItems m' ns).2) := by
      simp only [LayoutInput.layItems, LayoutM.collecting, hrun]
    rw [hstep]
    refine ⟨hreached, fun id l' hl' => hkept id l' ?_, .cons ⟨rfl, hkept _ _ hfind⟩ hitems⟩
    exact hcarries.layouts id l' hl' fun n _ => by simp [hidle]

namespace Store

/-- What is known when all aggregates have been laid out. -/
def laidOut (s : Store) : Memo := (s.layoutInput.layItems {} s.layoutInput.aggregates).2

/-- The layout of a type that a pass finds. -/
def layoutOf? (s : Store) (id : TypeId) : Option Layout := s.laidOut.layouts.find? id

/-- The layout is that of the type: it has a slot for each of its members in order, and nothing in
it is beyond the last word. -/
structure Lays (s : Store) (n : DeclaredType) (l : Layout) : Prop where
  typeId : l.typeId = n.id
  slots : List.Forall₂ (fun (m : Member) (slot : MemberSlot) => slot.memberId = m.id)
    (s.membersOf n.id) l.members
  fits : l.Fits

/-- The layouts that a pass writes: those of the types that are not ignored. -/
def written (s : Store) : List Layout :=
  (s.layoutItems.1.filter (!·.isIgnored)).map (·.layout)

/-- The sizes that a pass stages. -/
def sizeWrites (s : Store) : List (TypeId × UInt32) :=
  s.written.map fun l => (l.typeId, clampWord l.size)

/-- The offsets that a pass stages. -/
def offsetWrites (s : Store) : List (MemberId × UInt32) :=
  s.written.flatMap fun l => l.members.map fun slot => (slot.memberId, clampWord slot.offset)

section Items

variable {s : Store} (h : s.Sound)

include h

theorem Sound.reached_laidOut : s.layoutInput.Reached .words s.laidOut ∧
    List.Forall₂ (fun (n : DeclaredType) (i : LayoutItem) => i.isIgnored = n.isIgnored ∧
      s.layoutOf? n.id = some i.layout) s.aggregates s.layoutItems.1 := by
  have haggregates : ∀ n ∈ s.aggregates,
      s.layoutInput.types.find? n.id = some n ∧ n.isAggregate = true :=
    fun n hn => h.mem_aggregates_iff.1 hn
  obtain ⟨hreached, -, hitems⟩ :=
    LayoutInput.Reached.layItems h.distinct s.aggregates haggregates .fresh
  exact ⟨hreached, hitems⟩

/-- **Every aggregate has a layout**, and the pass lists them in order. -/
theorem Sound.items : List.Forall₂ (fun (n : DeclaredType) (i : LayoutItem) =>
    i.isIgnored = n.isIgnored ∧ s.layoutOf? n.id = some i.layout) s.aggregates s.layoutItems.1 :=
  h.reached_laidOut.2

theorem Sound.lays {n : DeclaredType} {l : Layout} (hn : n ∈ s.aggregates)
    (hl : s.layoutOf? n.id = some l) : s.Lays n l := by
  obtain ⟨hfind, hagg⟩ := h.mem_aggregates_iff.1 hn
  obtain ⟨hreached, -⟩ := h.reached_laidOut
  obtain ⟨n', hn', -, -, bs, ms, -, hms, rfl⟩ := (hreached.booked h.distinct).1.layouts hl
  obtain rfl : n = n' := Option.some.inj (hfind.symm.trans hn')
  refine ⟨rfl, ?_, n.fits_layout bs ms⟩
  rw [← h.layout_membersOf hfind hagg]
  have hslots := slots_placeMembers .words n.kind.isUnion (placeBases .words 0 1 bs).stop ms
  refine forall₂_trans (fun _ _ _ hm hslot => ?_) hms hslots
  exact hslot.1.trans (congrArg Member.id hm.member)

/-- The layouts that are written. -/
theorem Sound.mem_written_iff {l : Layout} : l ∈ s.written ↔
    ∃ n ∈ s.aggregates, n.isIgnored = false ∧ s.layoutOf? n.id = some l := by
  have hitems := h.items
  rw [written, List.mem_map]
  constructor
  · rintro ⟨i, hi, rfl⟩
    obtain ⟨hmem, hignored⟩ := List.mem_filter.1 hi
    obtain ⟨n, hn, hsame, hl⟩ := exists_of_forall₂ hitems i hmem
    rw [hsame, Bool.not_eq_true'] at hignored
    exact ⟨n, hn, hignored, hl⟩
  · rintro ⟨n, hn, hignored, hl⟩
    obtain ⟨i, hi, hsame, hl'⟩ := exists_of_forall₂ hitems.flip n hn
    refine ⟨i, List.mem_filter.2 ⟨hi, ?_⟩, Option.some.inj (hl'.symm.trans hl)⟩
    rw [hsame, hignored]
    rfl

/-- A type that is not ignored has one size written, that of its layout. -/
theorem Sound.mem_sizeWrites_iff {id : TypeId} {w : UInt32} : (id, w) ∈ s.sizeWrites ↔
    ∃ n ∈ s.aggregates, n.isIgnored = false ∧ n.id = id ∧
      ∃ l, s.layoutOf? n.id = some l ∧ clampWord l.size = w := by
  rw [sizeWrites, List.mem_map]
  constructor
  · rintro ⟨l, hl, hwrite⟩
    obtain ⟨rfl, rfl⟩ := Prod.mk.inj hwrite
    obtain ⟨n, hn, hignored, hl⟩ := h.mem_written_iff.1 hl
    exact ⟨n, hn, hignored, (h.lays hn hl).typeId.symm, l, hl, rfl⟩
  · rintro ⟨n, hn, hignored, rfl, l, hl, rfl⟩
    exact ⟨l, h.mem_written_iff.2 ⟨n, hn, hignored, hl⟩, Prod.ext (h.lays hn hl).typeId rfl⟩

theorem Sound.mem_offsetWrites_iff {id : MemberId} {w : UInt32} : (id, w) ∈ s.offsetWrites ↔
    ∃ n ∈ s.aggregates, n.isIgnored = false ∧ ∃ l, s.layoutOf? n.id = some l ∧
      ∃ slot ∈ l.members, slot.memberId = id ∧ clampWord slot.offset = w := by
  rw [offsetWrites, List.mem_flatMap]
  constructor
  · rintro ⟨l, hl, hwrite⟩
    obtain ⟨slot, hslot, hwrite⟩ := List.mem_map.1 hwrite
    obtain ⟨rfl, rfl⟩ := Prod.mk.inj hwrite
    obtain ⟨n, hn, hignored, hl⟩ := h.mem_written_iff.1 hl
    exact ⟨n, hn, hignored, l, hl, slot, hslot, rfl, rfl⟩
  · rintro ⟨n, hn, hignored, l, hl, slot, hslot, rfl, rfl⟩
    exact ⟨l, h.mem_written_iff.2 ⟨n, hn, hignored, hl⟩, List.mem_map_of_mem hslot⟩

theorem Sound.sizeWrite_unique {id : TypeId} {w w' : UInt32} (hw : (id, w) ∈ s.sizeWrites)
    (hw' : (id, w') ∈ s.sizeWrites) : w' = w := by
  obtain ⟨n, -, -, rfl, l, hl, rfl⟩ := h.mem_sizeWrites_iff.1 hw
  obtain ⟨n', -, -, hsame, l', hl', rfl⟩ := h.mem_sizeWrites_iff.1 hw'
  rw [hsame, hl] at hl'
  rw [Option.some.inj hl']

/-- A slot is that of a member of the type. -/
theorem Sound.member_of_slot {n : DeclaredType} {l : Layout} (hn : n ∈ s.aggregates)
    (hl : s.layoutOf? n.id = some l) {slot : MemberSlot} (hslot : slot ∈ l.members) :
    ∃ m, s.members.find? slot.memberId = some m ∧ m.owner = n.id := by
  obtain ⟨m, hm, hid⟩ := exists_of_forall₂ (h.lays hn hl).slots slot hslot
  obtain ⟨hfind, howner⟩ := h.mem_membersOf_iff.1 hm
  exact ⟨m, hid ▸ hfind, howner⟩

/-- A member has one slot, in the layout of the type that owns it. -/
theorem Sound.offsetWrite_unique {id : MemberId} {w w' : UInt32} (hw : (id, w) ∈ s.offsetWrites)
    (hw' : (id, w') ∈ s.offsetWrites) : w' = w := by
  obtain ⟨n, hn, -, l, hl, slot, hslot, rfl, rfl⟩ := h.mem_offsetWrites_iff.1 hw
  obtain ⟨n', hn', -, l', hl', slot', hslot', hsame, rfl⟩ := h.mem_offsetWrites_iff.1 hw'
  obtain ⟨m, hm, howner⟩ := h.member_of_slot hn hl hslot
  obtain ⟨m', hm', howner'⟩ := h.member_of_slot hn' hl' hslot'
  rw [hsame, hm] at hm'
  obtain rfl := Option.some.inj hm'
  rw [← howner', howner] at hl'
  obtain rfl := Option.some.inj (hl.symm.trans hl')
  -- both are slots of one layout now, and no two members have one identity
  have hids : l.members.map (·.memberId) = (s.membersOf n.id).map (·.id) := by
    have hslots := (h.lays hn hl).slots
    clear hl hl' hslot hslot'
    generalize l.members = slots, s.membersOf n.id = ms at hslots
    induction hslots with
    | nil => rfl
    | cons hslot _ ih => rw [List.map_cons, List.map_cons, ih, hslot]
  have hnodup := h.nodup_membersOf n.id
  rw [← hids] at hnodup
  rw [List.inj_on_of_nodup_map hnodup hslot' hslot hsame]

end Items

/-! ## What a pass changes -/

/-- The store with what a pass stages. -/
theorem stageLayouts_eq {s : Store} (hstaged : s.staged = {}) :
    s.stageLayouts s.layoutItems.1 =
      { s with staged := { offsets := s.offsetWrites, sizes := s.sizeWrites } } := by
  simp only [stageLayouts, stageOffsets, stageSizes, hstaged, List.nil_append]
  rfl

/-- What a layout pass changes: a type that is not ignored has the size of its layout, its members
have the offsets of their slots, and all else is as before. -/
structure LaidOut (s s' : Store) : Prop where
  written : ∀ n ∈ s.aggregates, n.isIgnored = false → ∃ l, s.layoutOf? n.id = some l ∧
    (∃ w, w.toNat = l.size ∧ s'.types.find? n.id = some { n with size := some w }) ∧
    List.Forall₂ (fun (m : Member) (slot : MemberSlot) => slot.memberId = m.id ∧
      ∃ w, w.toNat = slot.offset ∧ s'.members.find? m.id = some { m with offset := some w })
      (s.membersOf n.id) l.members
  typesKept : ∀ id n, s.types.find? id = some n → n.isAggregate = false ∨ n.isIgnored = true →
    s'.types.find? id = some n
  membersKept : ∀ id m, s.members.find? id = some m →
    (∀ n, s.types.find? m.owner = some n → n.isAggregate = false ∨ n.isIgnored = true) →
    s'.members.find? id = some m
  typeKeys : s'.types.keys = s.types.keys
  memberKeys : s'.members.keys = s.members.keys
  rest : s' = { s with types := s'.types, members := s'.members }

variable {s : Store}

/-- A type has the size that is written for it, or else the one it had. -/
theorem find?_types_laidOut (hstaged : s.staged = {}) {id : TypeId} {n : DeclaredType}
    (hn : s.types.find? id = some n) :
    (s.stageLayouts s.layoutItems.1).committed.types.find? id =
      some { n with size := (Table.lastWrite? s.sizeWrites id).or n.size } := by
  rw [stageLayouts_eq hstaged]
  obtain ⟨n', hn', hdeclared, hsize⟩ := size_committed
    (s := { s with staged := { offsets := s.offsetWrites, sizes := s.sizeWrites } }) hn
  rw [hn', DeclaredType.eq_of_declared hdeclared, hsize]

theorem find?_members_laidOut (hstaged : s.staged = {}) {id : MemberId} {m : Member}
    (hm : s.members.find? id = some m) :
    (s.stageLayouts s.layoutItems.1).committed.members.find? id =
      some { m with offset := (Table.lastWrite? s.offsetWrites id).or m.offset } := by
  rw [stageLayouts_eq hstaged]
  obtain ⟨m', hm', hdeclared, hoffset⟩ := offset_committed
    (s := { s with staged := { offsets := s.offsetWrites, sizes := s.sizeWrites } }) hm
  rw [hm', Member.eq_of_declared hdeclared, hoffset]

section Pass

variable (h : s.Sound) (hstaged : s.staged = {})

include h hstaged

/-- **Nothing that a pass stages is refused.** -/
theorem Sound.admitted_stageLayouts : (s.stageLayouts s.layoutItems.1).Admitted := by
  rw [stageLayouts_eq hstaged]
  refine ⟨by simp, by simp, by simp, by simp, ?_, ?_⟩
  · rintro ⟨id, w⟩ hw
    obtain ⟨n, hn, -, l, hl, slot, hslot, rfl, -⟩ := h.mem_offsetWrites_iff.1 hw
    obtain ⟨m, hm, -⟩ := h.member_of_slot hn hl hslot
    exact Table.mem_keys_of_find? hm
  · rintro ⟨id, w⟩ hw
    obtain ⟨n, hn, -, rfl, -⟩ := h.mem_sizeWrites_iff.1 hw
    exact Table.mem_keys_of_find? (h.mem_aggregates_iff.1 hn).1

/-- **The pass writes every size and offset that it finds, and nothing else.** -/
theorem Sound.laidOut : s.LaidOut (s.stageLayouts s.layoutItems.1).committed where
  written := by
    intro n hn hignored
    obtain ⟨i, -, -, hl⟩ := exists_of_forall₂ h.items.flip n hn
    have hlays := h.lays hn hl
    refine ⟨i.layout, hl, ⟨clampWord i.layout.size, toNat_clampWord_of_le hlays.fits.size, ?_⟩, ?_⟩
    · have hwrite : (n.id, clampWord i.layout.size) ∈ s.sizeWrites :=
        h.mem_sizeWrites_iff.2 ⟨n, hn, hignored, rfl, _, hl, rfl⟩
      rw [find?_types_laidOut hstaged (h.mem_aggregates_iff.1 hn).1,
        Table.lastWrite?_of_forall hwrite fun w hw => h.sizeWrite_unique hwrite hw, Option.some_or]
    · refine List.forall₂_iff_zip.2 ⟨hlays.slots.length_eq, fun {m slot} hmem => ?_⟩
      have hid := List.forall₂_zip hlays.slots hmem
      obtain ⟨hm, hslot⟩ := List.of_mem_zip hmem
      have hwrite : (m.id, clampWord slot.offset) ∈ s.offsetWrites :=
        h.mem_offsetWrites_iff.2 ⟨n, hn, hignored, _, hl, slot, hslot, hid, rfl⟩
      refine ⟨hid, _, toNat_clampWord_of_le (hlays.fits.offset slot hslot), ?_⟩
      rw [find?_members_laidOut hstaged (h.mem_membersOf_iff.1 hm).1,
        Table.lastWrite?_of_forall hwrite fun w hw => h.offsetWrite_unique hwrite hw,
        Option.some_or]
  typesKept := by
    intro id n hn hkept
    rw [find?_types_laidOut hstaged hn, Table.lastWrite?_eq_none, Option.none_or]
    rintro ⟨_, w⟩ hw rfl
    obtain ⟨n', hn', hignored, hid, -⟩ := h.mem_sizeWrites_iff.1 hw
    obtain ⟨hfind, hagg⟩ := h.mem_aggregates_iff.1 hn'
    rw [hid] at hfind
    obtain rfl := Option.some.inj (hfind.symm.trans hn)
    rcases hkept with hkept | hkept
    · exact absurd hagg (by simp [hkept])
    · exact absurd hignored (by simp [hkept])
  membersKept := by
    intro id m hm hkept
    rw [find?_members_laidOut hstaged hm, Table.lastWrite?_eq_none, Option.none_or]
    rintro ⟨_, w⟩ hw rfl
    obtain ⟨n, hn, hignored, l, hl, slot, hslot, hid, -⟩ := h.mem_offsetWrites_iff.1 hw
    obtain ⟨m', hm', howner⟩ := h.member_of_slot hn hl hslot
    rw [hid] at hm'
    obtain rfl := Option.some.inj (hm'.symm.trans hm)
    obtain ⟨hfind, hagg⟩ := h.mem_aggregates_iff.1 hn
    rcases hkept n (howner ▸ hfind) with hkept | hkept
    · exact absurd hagg (by simp [hkept])
    · exact absurd hignored (by simp [hkept])
  typeKeys := Table.keys_writeAll _ _
  memberKeys := Table.keys_writeAll _ _
  rest := by
    rw [stageLayouts_eq hstaged]
    cases s
    obtain rfl := hstaged
    rfl

/-- **Another pass finds the same**, since layout reads nothing that a pass writes. -/
theorem Sound.layoutItems_committed :
    (s.stageLayouts s.layoutItems.1).committed.layoutItems = s.layoutItems := by
  have hlaid := h.laidOut hstaged
  have hsound := h.stageLayouts s.layoutItems.1
  have htypes : (s.stageLayouts s.layoutItems.1).committed.types.mapValues DeclaredType.declared =
      s.types.mapValues DeclaredType.declared :=
    (lifts_types_committed hsound.types_nodup).mapValues_eq
  have hmembers : (s.stageLayouts s.layoutItems.1).committed.members.mapValues Member.declared =
      s.members.mapValues Member.declared :=
    (lifts_members_committed hsound.members_nodup).mapValues_eq
  generalize (s.stageLayouts s.layoutItems.1).committed = s' at *
  have hthrough : s'.through .unwritten = s.through .unwritten := by
    rw [hlaid.rest]
    simp only [through, Veil.unwritten, htypes, hmembers]
  rw [← s'.layoutItems_unwritten, hthrough, s.layoutItems_unwritten]

omit h hstaged in
/-- A pass succeeds if nothing that it stages is refused. -/
theorem runLayout_of_admitted (hadmitted : (s.stageLayouts s.layoutItems.1).Admitted)
    (keepLayouts : Bool) : (s.runLayout keepLayouts).outcome =
      .ok { LayoutReport.ofItems keepLayouts s.layoutItems.2 s.layoutItems.1 with
        changes := (s.stageLayouts s.layoutItems.1).changes } := by
  have hflush := value_flush_of_admitted hadmitted
  simp only [runLayout, hflush]

omit h hstaged in
theorem store_runLayout_of_admitted (hadmitted : (s.stageLayouts s.layoutItems.1).Admitted)
    (keepLayouts : Bool) :
    (s.runLayout keepLayouts).store = (s.stageLayouts s.layoutItems.1).committed := by
  rw [store_runLayout, value_flush_of_admitted hadmitted]

/-- A store that a pass has been over has all that a pass would write. -/
theorem Sound.writes_kept : (∀ w ∈ s.sizeWrites,
      ((s.stageLayouts s.layoutItems.1).committed.types.find? w.1).bind (changeType w.2) = none) ∧
    ∀ w ∈ s.offsetWrites,
      ((s.stageLayouts s.layoutItems.1).committed.members.find? w.1).bind (changeMember w.2) =
        none := by
  constructor
  · rintro ⟨id, w⟩ hw
    obtain ⟨n, hn, -, rfl, -⟩ := h.mem_sizeWrites_iff.1 hw
    rw [find?_types_laidOut hstaged (h.mem_aggregates_iff.1 hn).1,
      Table.lastWrite?_of_forall hw fun w' hw' => h.sizeWrite_unique hw hw']
    exact if_pos rfl
  · rintro ⟨id, w⟩ hw
    obtain ⟨n, hn, -, l, hl, slot, hslot, rfl, -⟩ := h.mem_offsetWrites_iff.1 hw
    obtain ⟨m, hm, -⟩ := h.member_of_slot hn hl hslot
    rw [find?_members_laidOut hstaged hm,
      Table.lastWrite?_of_forall hw fun w' hw' => h.offsetWrite_unique hw hw']
    exact if_pos rfl

/-- **A second pass changes nothing.** -/
theorem Sound.flush_committed {s' : Store}
    (hs' : s' = (s.stageLayouts s.layoutItems.1).committed) :
    (s'.stageLayouts s'.layoutItems.1).changes = {} ∧
      (s'.stageLayouts s'.layoutItems.1).committed = s' := by
  have hstaged' : s'.staged = {} := hs' ▸ rfl
  have hitems : s'.layoutItems = s.layoutItems := hs' ▸ h.layoutItems_committed hstaged
  have hsizes : s'.sizeWrites = s.sizeWrites := by rw [sizeWrites, written, hitems]; rfl
  have hoffsets : s'.offsetWrites = s.offsetWrites := by rw [offsetWrites, written, hitems]; rfl
  obtain ⟨hsized, hplaced⟩ := h.writes_kept hstaged
  rw [← hs'] at hsized hplaced
  have htypes := Table.writeAll_of_kept hsized
  have hmembers := Table.writeAll_of_kept hplaced
  rw [stageLayouts_eq hstaged', hsizes, hoffsets]
  have hdiscard : s'.discard = s' := by rw [Store.discard, ← hstaged']
  have happly : s'.discard.apply { offsets := s.offsetWrites, sizes := s.sizeWrites } =
      ({}, s') := by
    rw [hdiscard]
    simp only [apply, List.foldl_nil, Table.writeAll_nil, htypes, hmembers, List.length_nil]
  exact Prod.mk.inj happly

end Pass

/-- The store with no type ignored. -/
def unignored (s : Store) : Store :=
  { s with types := s.types.mapValues fun n => { n with isIgnored := false } }

theorem layoutOf?_unignored (s : Store) (id : TypeId) :
    s.unignored.layoutOf? id = s.layoutOf? id := by
  have hthrough : s.unignored = s.through .unignored := by
    simp only [unignored, through, Veil.unignored, Table.mapValues_id]
  obtain ⟨hmemo, -⟩ := s.layoutInput.layItems_through .unignored {} s.layoutInput.aggregates
  rw [hthrough, layoutOf?, laidOut, layoutInput_through, LayoutInput.aggregates_through, hmemo]
  rfl

end Store

/-- **The layout pass is total and idempotent**, for every store with nothing staged. It writes the
sizes and offsets of all types that are not ignored, and nothing else; what it finds does not depend
on which types are ignored. A second pass reports the same and has nothing to change. -/
theorem layout_pass {s : Store} (hs : s.Reachable) (hstaged : s.staged = {})
    (keepLayouts : Bool) : ∃ report s',
      (s.runLayout keepLayouts).outcome = .ok report ∧ (s.runLayout keepLayouts).store = s' ∧
      s.LaidOut s' ∧
      (∀ id, s.unignored.layoutOf? id = s.layoutOf? id) ∧
      (∀ l ∈ report.layouts, s.layoutOf? l.typeId = some l) ∧
      (s'.runLayout keepLayouts).outcome = .ok { report with changes := {} } ∧
      (s'.runLayout keepLayouts).store = s' := by
  have h := hs.sound
  have hadmitted := h.admitted_stageLayouts hstaged
  have hstore := Store.store_runLayout_of_admitted hadmitted keepLayouts
  refine ⟨_, _, Store.runLayout_of_admitted hadmitted keepLayouts, hstore, h.laidOut hstaged,
    s.layoutOf?_unignored, fun l hl => ?_, ?_⟩
  · have hwritten : l ∈ s.written := by
      simp only [LayoutReport.ofItems] at hl
      split at hl
      · exact hl
      · cases hl
    obtain ⟨n, hn, -, hl⟩ := h.mem_written_iff.1 hwritten
    rw [(h.lays hn hl).typeId, hl]
  -- the second pass starts from a store that a run of operations leads to
  have hs' : (s.stageLayouts s.layoutItems.1).committed.Reachable :=
    hstore ▸ hs.perform (.layOut keepLayouts)
  obtain ⟨hchanges, hcommitted⟩ := h.flush_committed hstaged rfl
  have hadmitted' := hs'.sound.admitted_stageLayouts rfl
  rw [Store.runLayout_of_admitted hadmitted', Store.store_runLayout_of_admitted hadmitted',
    hchanges, hcommitted, h.layoutItems_committed hstaged]
  exact ⟨rfl, rfl⟩

/-- A struct with a member of an ignored type, and a struct that contains itself. -/
def partlyIgnored : Store :=
  [.addType { name := "Inner", kind := .struct, isIgnored := true },
    .addMember ⟨1⟩ { name := "x", typeString := "double", order := some 0 },
    .addType { name := "Outer", kind := .struct },
    .addMember ⟨4⟩ { name := "first", typeString := "char", order := some 0 },
    .addMember ⟨4⟩ { name := "inner", typeString := "Inner", order := some 1 },
    .addMember ⟨4⟩ { name := "self", typeString := "Outer", order := some 2 },
    .stageResolutions [(⟨7⟩, .type ⟨1⟩), (⟨9⟩, .type ⟨4⟩)],
    .flush].foldl Store.perform Store.empty

theorem layout_pass_partlyIgnored : partlyIgnored.staged = {} ∧
    (∃ l, partlyIgnored.layoutOf? ⟨4⟩ = some l ∧ l.size = 16 ∧
      l.members.map (·.offset) = [0, 4, 12]) ∧
    ∃ report s',
      (partlyIgnored.runLayout true).outcome = .ok report ∧
      (partlyIgnored.runLayout true).store = s' ∧ partlyIgnored.LaidOut s' ∧
      (s'.runLayout true).outcome = .ok { report with changes := {} } := by
  have hordered : partlyIgnored.Ordered := by decide +kernel
  have hlayout : (partlyIgnored.layoutOf? ⟨4⟩).map (fun l => (l.size, l.members.map (·.offset))) =
      some (16, [0, 4, 12]) := by
    rw [Store.layoutOf?, Store.laidOut, hordered.layoutInput_eq]
    decide +kernel
  obtain ⟨l, hl, hseen⟩ := Option.map_eq_some_iff.1 hlayout
  obtain ⟨hsize, hoffsets⟩ := Prod.mk.inj hseen
  obtain ⟨report, s', hok, hstore, hlaid, -, -, hagain, -⟩ :=
    layout_pass (Store.leads_foldl _ _ : partlyIgnored.Reachable) rfl true
  exact ⟨rfl, ⟨l, hl, hsize, hoffsets⟩, report, s', hok, hstore, hlaid, hagain⟩

end DeclGraph
