import DeclGraph.Proofs.Alignment
import DeclGraph.Proofs.Provenance

/-!
# Sizes and alignments are tight

An aggregate is as large as its slots need it to be, up to the next multiple of its alignment, and
it is aligned as its parts need it to be, unless its declaration asks for something else.

* `Layout.ends`, `Layout.alignments`: what the slots of a layout need.
* `Layout.Tight`: **its size and its alignment are the least ones.**
* `Laid.le_iff`: bytes that are laid out from left to right end where one of them does.
* `stop_placeMembers_le_iff`, `alignment_placeMembers`: members end where one of them does, and
  count the alignments of all but those that only mark a place.
* `layout?_tight`: the layout of every aggregate is tight, whatever was requested before.
-/

namespace DeclGraph

open AddressSpace

/-- Where a member ends. All members of a union are as large as their types, and in a struct it is
the bytes of the slot that count. -/
def MemberSlot.endIn (isUnion : Bool) (s : MemberSlot) : Nat :=
  if isUnion then s.offset + s.size else s.piece.stop

/-- A member counts for the alignment, unless it is a bit-field that only marks a place in a
struct. -/
def MemberSlot.counts (isUnion : Bool) (s : MemberSlot) : Bool := isUnion || s.piece.use != .mark

namespace Layout

variable (l : Layout)

/-- Where the bases and the members end. -/
def ends : List Nat :=
  l.bases.map (fun b => b.offset + b.size) ++ l.members.map (MemberSlot.endIn l.kind.isUnion)

/-- The alignments that count, if those of the bases are known. -/
def alignments (bases : List Nat) : List Nat :=
  bases ++ (l.members.filter (MemberSlot.counts l.kind.isUnion)).map (·.alignment)

/-- **The size and the alignment of a layout are the least ones** for its slots, unless an alignment
is requested. The members of a union are all at the end of the last base. -/
structure Tight (requested : Option UInt32) (bases : List Nat) : Prop where
  alignment : l.alignment =
    (Metrics.requested requested).getD ((l.alignments bases).foldr max 1)
  together : l.kind.isUnion = true → ∀ s ∈ l.members,
    s.offset = (l.bases.getLast?.map fun b => b.offset + b.size).getD 0
  size : IsLeast {k | l.alignment ∣ k ∧ ∀ e ∈ l.ends, e ≤ k} l.size

end Layout

/-! ## Ends -/

/-- Bytes that are laid out from left to right end where the last one of them does. -/
theorem Laid.le_iff {x e k : Nat} {u : Option Nat} {ps : List Piece} (h : Laid x u ps e) :
    e ≤ k ↔ x ≤ k ∧ ∀ p ∈ ps, p.stop ≤ k := by
  constructor
  · exact fun hk => ⟨le_trans h.le hk, fun p hp => le_trans (h.stop_le hp) hk⟩
  · rintro ⟨hx, hps⟩
    induction h with
    | nil => exact hx
    -- what follows starts where the first piece stops, unless that joins a unit
    | whole _ _ ih | mark _ _ ih | opened _ _ ih =>
      rw [List.forall_mem_cons] at hps
      exact ih hps.1 hps.2
    | joined _ _ ih =>
      rw [List.forall_mem_cons] at hps
      exact ih hx hps.2

theorem forall_piece_stop {bs : List BaseSlot} {alignments : List Nat}
    (hlength : bs.length = alignments.length) (k : Nat) :
    (∀ p ∈ List.zipWith BaseSlot.piece bs alignments, p.stop ≤ k) ↔
      ∀ b ∈ bs, b.offset + b.size ≤ k := by
  induction bs generalizing alignments with
  | nil => simp
  | cons b bs ih =>
    cases alignments with
    | nil => simp at hlength
    | cons a alignments =>
      rw [List.zipWith_cons_cons, List.forall_mem_cons, List.forall_mem_cons,
        ih (Nat.succ.inj hlength)]
      rfl

theorem length_slots_placeBases (space : AddressSpace) (bs : List MeasuredBase) (x a : Nat) :
    (placeBases space x a bs).slots.length = bs.length := by
  induction bs generalizing x a with
  | nil => rfl
  | cons b bs ih => exact congrArg (· + 1) (ih _ _)

theorem stop_placeBases_le_iff {bs : List MeasuredBase} {x a k : Nat}
    (hpos : ∀ b ∈ bs, 0 < b.metrics.alignment) (hstop : (placeBases .words x a bs).stop < maxWord) :
    (placeBases .words x a bs).stop ≤ k ↔
      x ≤ k ∧ ∀ b ∈ (placeBases .words x a bs).slots, b.offset + b.size ≤ k := by
  have hlength : (placeBases .words x a bs).slots.length =
      (bs.map (·.metrics.alignment)).length := by
    rw [length_slots_placeBases, List.length_map]
  rw [(laid_placeBases bs hpos x a hstop).le_iff, forall_piece_stop hlength]

/-- Bases end where the last one does. -/
theorem stop_placeBases_eq (bs : List MeasuredBase) (hpos : ∀ b ∈ bs, 0 < b.metrics.alignment) :
    ∀ x a, (placeBases .words x a bs).stop < maxWord → (placeBases .words x a bs).stop =
      ((placeBases .words x a bs).slots.getLast?.map fun b => b.offset + b.size).getD x := by
  induction bs with
  | nil => exact fun _ _ _ => rfl
  | cons b bs ih =>
    intro x a hstop
    simp only [placeBases] at hstop ⊢
    have hpos' : ∀ b ∈ bs, 0 < b.metrics.alignment := fun b hb => hpos b (by simp [hb])
    have hle := (laid_placeBases bs hpos' _ _ hstop).le
    have hsum := clamp_words_of_lt (lt_of_le_of_lt hle hstop)
    rw [ih hpos' _ _ hstop, List.getLast?_cons, hsum]
    cases (placeBases .words (words.alignUp x b.metrics.alignment + b.metrics.size)
      (max a b.metrics.alignment) bs).slots.getLast? with
    | none => rfl
    | some last => rfl

theorem stop_placeTogether_le_iff (ms : List MeasuredMember) (start : Nat) : ∀ stop a,
    (placeTogether .words start stop a ms).stop < maxWord → ∀ k,
      ((placeTogether .words start stop a ms).stop ≤ k ↔
        stop ≤ k ∧ ∀ s ∈ (placeTogether .words start stop a ms).slots, s.offset + s.size ≤ k) := by
  induction ms with
  | nil => intro stop a _ k; simp [placeTogether]
  | cons m ms ih =>
    intro stop a hstop k
    simp only [placeTogether] at hstop ⊢
    have hrest := ih _ _ hstop
    -- nothing is clamped, since the end is at least that of the first member
    have hle := ((hrest _).1 le_rfl).1
    have hsum := clamp_words_of_lt (lt_of_le_of_lt (le_max_right _ _) (lt_of_le_of_lt hle hstop))
    have hslot : (m.slot start (m.width.map fun _ => 0)).offset +
        (m.slot start (m.width.map fun _ => 0)).size = start + m.metrics.size := rfl
    rw [hrest, List.forall_mem_cons, hsum, Nat.max_le, and_assoc, hslot]

/-- **Members end where one of them does**, or where they start if there are none. -/
theorem stop_placeMembers_le_iff {ms : List MeasuredMember} {isUnion : Bool} {start k : Nat}
    (hpos : ∀ m ∈ ms, 0 < m.metrics.alignment)
    (hstop : (placeMembers .words isUnion start ms).stop < maxWord) :
    (placeMembers .words isUnion start ms).stop ≤ k ↔
      start ≤ k ∧ ∀ s ∈ (placeMembers .words isUnion start ms).slots, s.endIn isUnion ≤ k := by
  cases isUnion with
  | true => exact stop_placeTogether_le_iff ms start start 1 hstop k
  | false =>
    have hlaid := laid_placeInOrder ms hpos _ (Cursor.steady_start start) hstop
    have hends : (∀ p ∈ (placeInOrder .words (Cursor.start start) ms).slots.map MemberSlot.piece,
        p.stop ≤ k) ↔
        ∀ s ∈ (placeInOrder .words (Cursor.start start) ms).slots, s.endIn false ≤ k :=
      List.forall_mem_map
    exact hlaid.le_iff.trans (and_congr_right fun _ => hends)

theorem offset_placeTogether (space : AddressSpace) (ms : List MeasuredMember) (start : Nat) :
    ∀ stop a, ∀ s ∈ (placeTogether space start stop a ms).slots, s.offset = start := by
  induction ms with
  | nil => exact fun _ _ _ hs => by cases hs
  | cons m ms ih =>
    intro stop a s hs
    rcases List.mem_cons.1 hs with rfl | hs
    · rfl
    · exact ih _ _ s hs

/-! ## Alignments -/

theorem alignment_placeBases (space : AddressSpace) (bs : List MeasuredBase) : ∀ x a,
    (placeBases space x a bs).alignment = (bs.map (·.metrics.alignment)).foldr max a := by
  induction bs with
  | nil => exact fun _ _ => rfl
  | cons b bs ih =>
    intro x a
    simp only [placeBases, List.map_cons, List.foldr_cons]
    rw [ih, List.foldr_assoc, max_comm]

theorem Cursor.alignment_place (space : AddressSpace) (c : Cursor) (width : Option Nat)
    (m : Metrics) : (c.place space width m).1.alignment =
      if width = some 0 then c.alignment else max c.alignment m.alignment := by
  cases width with
  | none => rfl
  | some w =>
    simp only [place, placeBits, Option.some.injEq]
    split
    · rfl
    · split
      · split <;> rfl
      · rfl

theorem MeasuredMember.counts_slot {c c' : Cursor} {m : MeasuredMember} {p : Placement}
    (hp : c.Places m.metrics m.width c' p) :
    (m.slot p.offset p.bit).counts false = !decide (m.width = some 0) := by
  generalize hwidth : m.width = width at hp
  cases hp with
  | whole => simp [MemberSlot.counts, MemberSlot.piece, slot, hwidth]
  | mark => simp [MemberSlot.counts, MemberSlot.piece, slot, hwidth]
  | opened hw => simp [MemberSlot.counts, MemberSlot.piece, slot, hwidth, hw]
  | joined hw => simp [MemberSlot.counts, MemberSlot.piece, slot, hwidth, hw]

theorem alignment_placeInOrder (ms : List MeasuredMember) : ∀ c : Cursor,
    (placeInOrder .words c ms).alignment =
      (((placeInOrder .words c ms).slots.filter (·.counts false)).map (·.alignment)).foldr max
        c.alignment := by
  induction ms with
  | nil => exact fun _ => rfl
  | cons m ms ih =>
    intro c
    have hcounts := MeasuredMember.counts_slot (c.places m.width m.metrics)
    simp only [placeInOrder, List.filter_cons, hcounts]
    rw [ih, c.alignment_place]
    by_cases hw : m.width = some 0
    · simp [hw]
    · simp only [hw, decide_false, Bool.not_false, if_true, if_false, List.map_cons,
        List.foldr_cons]
      rw [List.foldr_assoc, max_comm]
      rfl

theorem alignment_placeTogether (space : AddressSpace) (ms : List MeasuredMember) (start : Nat) :
    ∀ stop a, (placeTogether space start stop a ms).alignment =
      ((placeTogether space start stop a ms).slots.map (·.alignment)).foldr max a := by
  induction ms with
  | nil => exact fun _ _ => rfl
  | cons m ms ih =>
    intro stop a
    simp only [placeTogether, List.map_cons, List.foldr_cons]
    rw [ih, List.foldr_assoc, max_comm]
    rfl

/-- **Members count the alignments** of all but those that only mark a place. -/
theorem alignment_placeMembers (isUnion : Bool) (start : Nat) (ms : List MeasuredMember) :
    (placeMembers .words isUnion start ms).alignment =
      (((placeMembers .words isUnion start ms).slots.filter (·.counts isUnion)).map
        (·.alignment)).foldr max 1 := by
  cases isUnion with
  | true =>
    have hall : (placeTogether .words start start 1 ms).slots.filter (·.counts true) =
        (placeTogether .words start start 1 ms).slots := List.filter_eq_self.2 fun _ _ => rfl
    rw [placeMembers, if_pos rfl, hall]
    exact alignment_placeTogether .words ms start start 1
  | false => exact alignment_placeInOrder ms _

theorem Metrics.requested_pos (alignment : Option UInt32) {a : Nat} (ha : 0 < a) :
    0 < (requested alignment).getD a := by
  cases h : requested alignment with
  | none => exact ha
  | some k =>
    rw [requested, Option.filter_eq_some_iff] at h
    exact of_decide_eq_true h.2

theorem foldr_max_pos (as : List Nat) : 0 < as.foldr max 1 := by
  induction as with
  | nil => exact Nat.one_pos
  | cons a as ih => exact Nat.lt_of_lt_of_le ih (Nat.le_max_right _ _)

theorem foldr_max_append (as bs : List Nat) :
    (as ++ bs).foldr max 1 = max (as.foldr max 1) (bs.foldr max 1) := by
  have hone : bs.foldr max 1 = max 1 (bs.foldr max 1) :=
    (Nat.max_eq_right (foldr_max_pos bs)).symm
  rw [List.foldr_append, hone, List.foldr_assoc, ← hone]

/-! ## Layouts -/

/-- The layout of an aggregate is tight, unless it reaches the end of the address space. -/
theorem tight_layout {n : DeclaredType} {bs : List MeasuredBase} {ms : List MeasuredMember}
    (hbs : ∀ b ∈ bs, 0 < b.metrics.alignment) (hms : ∀ m ∈ ms, 0 < m.metrics.alignment)
    (hsize : (n.layout .words bs ms).size < maxWord) :
    (n.layout .words bs ms).Tight n.alignment (bs.map (·.metrics.alignment)) := by
  have hstop := lt_of_le_of_lt (le_alignUp_words hsize) hsize
  have hmembers := fun k => stop_placeMembers_le_iff (k := k) hms hstop
  have hle := ((hmembers _).1 le_rfl).1
  have hbases := fun k => stop_placeBases_le_iff (k := k) hbs (lt_of_le_of_lt hle hstop)
  have halignment : (n.layout .words bs ms).alignment = (Metrics.requested n.alignment).getD
      (((n.layout .words bs ms).alignments (bs.map (·.metrics.alignment))).foldr max 1) := by
    rw [Layout.alignments, foldr_max_append, ← alignment_placeBases .words bs 0 1]
    exact congrArg (fun a => (Metrics.requested n.alignment).getD (max _ a))
      (alignment_placeMembers _ _ ms)
  refine ⟨halignment, ?_, ?_⟩
  · intro hunion s hs
    have hplaced : (n.layout .words bs ms).members = (placeTogether .words
        (placeBases .words 0 1 bs).stop (placeBases .words 0 1 bs).stop 1 ms).slots := by
      have hkind : n.kind.isUnion = true := hunion
      simp only [DeclaredType.layout, Layout.withPadding, placeMembers, hkind, if_true]
    rw [hplaced] at hs
    rw [offset_placeTogether .words ms _ _ _ s hs]
    exact stop_placeBases_eq bs hbs 0 1 (lt_of_le_of_lt hle hstop)
  · have hends : ∀ k, (∀ e ∈ (n.layout .words bs ms).ends, e ≤ k) ↔
        (placeMembers .words n.kind.isUnion (placeBases .words 0 1 bs).stop ms).stop ≤ k := by
      intro k
      rw [hmembers, hbases, and_iff_right (Nat.zero_le k), Layout.ends, List.forall_mem_append,
        List.forall_mem_map, List.forall_mem_map]
      exact Iff.rfl
    have hpos : 0 < (n.layout .words bs ms).alignment := by
      rw [halignment]
      exact Metrics.requested_pos _ (foldr_max_pos _)
    simp only [hends]
    exact isLeast_alignUp hpos hsize

theorem typeId_slots_placeBases (space : AddressSpace) {d : LayoutInput}
    {P : TypeId → Metrics → Prop} {es : List BaseEdge} {bs : List MeasuredBase}
    (h : List.Forall₂ (BaseMeasured d P) (es.filter (·.target.isSome)) bs) (x a : Nat) :
    (placeBases space x a bs).slots.map (·.typeId) = es.filterMap (·.target) := by
  have hslots : ∀ (bs : List MeasuredBase) (x a : Nat),
      (placeBases space x a bs).slots.map (·.typeId) = bs.map (·.typeId) := by
    intro bs
    induction bs with
    | nil => exact fun _ _ => rfl
    | cons b bs ih => exact fun x a => congrArg (b.typeId :: ·) (ih _ _)
  have htargets : bs.map (fun b => some b.typeId) =
      (es.filter (·.target.isSome)).map (·.target) :=
    map_eq_of_forall₂ h fun _ _ hb => hb.target.symm
  calc (placeBases space x a bs).slots.map (·.typeId)
      = bs.map (·.typeId) := hslots bs x a
    _ = (bs.map fun b => some b.typeId).filterMap fun t => t := by
      rw [List.filterMap_map, ← List.filterMap_eq_map]
      rfl
    _ = (es.filter (·.target.isSome)).filterMap (·.target) := by
      rw [htargets, List.filterMap_map]
      rfl
    _ = es.filterMap (·.target) := by
      rw [List.filterMap_filter]
      congr 1
      funext e
      cases e.target <;> rfl

theorem memberId_slots_placeMembers (space : AddressSpace) {d : LayoutInput}
    {P : TypeId → Metrics → Prop} {scope : String} {ms : List Member} {mms : List MeasuredMember}
    (h : List.Forall₂ (MemberMeasured d space P scope) ms mms) (isUnion : Bool) (start : Nat) :
    (placeMembers space isUnion start mms).slots.map (·.memberId) = ms.map (·.id) :=
  calc (placeMembers space isUnion start mms).slots.map (·.memberId)
      = mms.map (·.member.id) :=
        map_eq_of_forall₂ (slots_placeMembers space isUnion start mms) fun _ _ h => h.1
    _ = ms.map (·.id) := map_eq_of_forall₂ h fun _ _ h => congrArg Member.id h.member

/-- The tight layout of a type of a store, with the metrics of its bases: its slots are those of
the members and of the bases that are resolved. -/
structure Store.LaidTight (s : Store) (m : Memo) (id : TypeId) (l : Layout) (n : DeclaredType)
    (xs : List Metrics) : Prop where
  type : s.types.find? id = some n
  kind : l.kind = n.kind
  bases : l.bases.map (·.typeId) = (s.basesOf id).filterMap (·.target)
  members : l.members.map (·.memberId) = (s.membersOf id).map (·.id)
  metrics : List.Forall₂ (fun b x => s.layoutInput.Settled m b.typeId x ∧ b.size = x.size) l.bases xs
  tight : l.Tight n.alignment (xs.map (·.alignment))

/-- **The layout of every aggregate is tight**, whatever has been requested before it, unless it
reaches the end of the address space. Its bases count with the metrics of their types; only where a
base contains itself may the fallback stand for them. -/
theorem layout?_tight {s : Store} (hs : s.Reachable) {m m' : Memo} {id : TypeId} {l : Layout}
    (hm : s.layoutInput.Reached .words m)
    (hl : (s.layoutInput.layout? .words id).run m = (some l, m')) (hsize : l.size < maxWord) :
    ∃ n xs, s.LaidTight m' id l n xs := by
  obtain ⟨hm', hfind, n, hn, hagg⟩ := hm.of_layout? hl
  have hfiled := hm'.filed hs.sound.distinct
  obtain ⟨n', hn', bs, ms, hbs, hms, rfl⟩ := hfiled.filed hfind
  obtain rfl := Option.some.inj (hn.symm.trans hn')
  have hid : n.id = id := hs.sound.distinct.id hn
  have hsupplied : ∀ b ∈ bs, s.layoutInput.Supplies m'.metrics b.typeId b.metrics := by
    intro b hb
    obtain ⟨e, -, he⟩ := exists_of_forall₂ hbs b hb
    exact he.metrics
  have hbases : ∀ b ∈ bs, 0 < b.metrics.alignment := fun b hb =>
    ((hsupplied b hb).found hfiled.sound).1
  have hmembers := positive_of_measured (fun _ _ h => (h.found hfiled.sound).1) hms
  have hslots := slots_placeBases .words bs (fun b hb => (hsupplied b hb).settled) 0 1
  have htypes := typeId_slots_placeBases .words hbs 0 1
  have hmemberIds := memberId_slots_placeMembers .words hms n.kind.isUnion
    (placeBases .words 0 1 bs).stop
  rw [hid, hs.sound.layout_basesOf hn hagg] at htypes
  rw [hid, hs.sound.layout_membersOf hn hagg] at hmemberIds
  refine ⟨n, bs.map MeasuredBase.metrics, hn, rfl, htypes, hmemberIds, hslots, ?_⟩
  rw [List.map_map]
  exact tight_layout hbases hmembers hsize

/-- A struct and a union over one base. The struct has another base that is not resolved, a
bit-field of width zero that asks for an alignment, and one over a type without bytes. -/
def stacked : Store :=
  [.addType { name := "A", kind := .struct },
    .addMember ⟨1⟩ { name := "x", typeString := "int", order := some 0 },
    .addMember ⟨1⟩ { name := "c", typeString := "char", order := some 1 },
    .addType { name := "S", kind := .struct },
    .addBase ⟨6⟩ "A",
    .addBase ⟨6⟩ "Missing",
    .addMember ⟨6⟩ { name := "low", typeString := "int", order := some 0, bitWidth := some 3 },
    .addMember ⟨6⟩
      { name := "z", typeString := "int", order := some 1, bitWidth := some 0,
        alignment := some 16 },
    .addMember ⟨6⟩ { name := "last", typeString := "char", order := some 2 },
    .addMember ⟨6⟩ { name := "v", typeString := "void", order := some 3, bitWidth := some 2 },
    .addType { name := "U", kind := .union, alignment := some 32 },
    .addBase ⟨17⟩ "A",
    .addMember ⟨17⟩ { name := "d", typeString := "double", order := some 0 },
    .addMember ⟨17⟩ { name := "h", typeString := "short", order := some 1 },
    .stageBases [(⟨7⟩, ⟨1⟩), (⟨18⟩, ⟨1⟩)],
    .flush].foldl Store.perform Store.empty

theorem layout?_tight_stacked :
    (∃ l m', (stacked.layoutInput.layout? .words ⟨6⟩).run {} = (some l, m') ∧ l.kind = .struct ∧
      l.size = 20 ∧ l.alignment = 4 ∧ l.ends = [8, 12, 16, 17, 18] ∧
      ∃ n xs, stacked.LaidTight m' ⟨6⟩ l n xs) ∧
    ∃ l m', (stacked.layoutInput.layout? .words ⟨17⟩).run {} = (some l, m') ∧ l.kind = .union ∧
      l.size = 32 ∧ l.alignment = 32 ∧ l.ends = [8, 16, 10] ∧
      ∃ n xs, stacked.LaidTight m' ⟨17⟩ l n xs := by
  have hordered : stacked.Ordered := by decide +kernel
  have hreachable : stacked.Reachable := Store.leads_foldl _ _
  have hrun : ((stacked.layoutInput.layout? .words ⟨6⟩).run {}).1.map
        (fun l => (l.kind, l.size, l.alignment, l.ends)) =
          some (.struct, 20, 4, [8, 12, 16, 17, 18]) ∧
      ((stacked.layoutInput.layout? .words ⟨17⟩).run {}).1.map
        (fun l => (l.kind, l.size, l.alignment, l.ends)) = some (.union, 32, 32, [8, 16, 10]) := by
    rw [hordered.layoutInput_eq]
    decide +kernel
  constructor
  · obtain ⟨l, m', hl, hseen⟩ := LayoutM.exists_run_of_map hrun.1
    simp only [Prod.mk.injEq] at hseen
    have hlt : l.size < maxWord := by rw [hseen.2.1]; decide
    exact ⟨l, m', hl, hseen.1, hseen.2.1, hseen.2.2.1, hseen.2.2.2,
      layout?_tight hreachable .fresh hl hlt⟩
  · obtain ⟨l, m', hl, hseen⟩ := LayoutM.exists_run_of_map hrun.2
    simp only [Prod.mk.injEq] at hseen
    have hlt : l.size < maxWord := by rw [hseen.2.1]; decide
    exact ⟨l, m', hl, hseen.1, hseen.2.1, hseen.2.2.1, hseen.2.2.2,
      layout?_tight hreachable .fresh hl hlt⟩

end DeclGraph
