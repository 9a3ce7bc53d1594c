import DeclGraph.Proofs.Twins

/-!
# Layout after a reload

A layout pass can be run on a store, or on what has been made of its document. The document that
comes out is the same: layout reads nothing that the document does not carry, and where a type
contains itself, the measurement starts at the same type.

* `Store.writing`: what a pass does to types and members.
* `Store.typeRecord_laidOut`, `Store.typedefRecord_laidOut`: the records after a pass.
* `Store.SameDocument.laidOut`: **a pass keeps documents the same.**
* `Store.layout_reloaded`: **reloading does not disturb layout.**
-/

namespace DeclGraph

namespace Store

/-! ## What a pass leaves -/

/-- What a pass does to types and members. -/
def writing (s : Store) : Veil where
  type n := { n with size := (Table.lastWrite? s.sizeWrites n.id).or n.size }
  member m := { m with offset := (Table.lastWrite? s.offsetWrites m.id).or m.offset }
  id _ := rfl
  baseName _ := rfl
  kind _ := rfl
  alignment _ := rfl
  qualifiedName _ := rfl
  memberId _ := rfl
  memberName _ := rfl
  order _ := rfl
  typeString _ := rfl
  reference _ := rfl
  bitWidth _ := rfl
  memberAlignment _ := rfl
  isFunctionPointer _ := rfl

variable {s s' : Store}

theorem Sound.committed_stageLayouts (h : s.Sound) (hstaged : s.staged = {}) :
    (s.stageLayouts s.layoutItems.1).committed = s.through s.writing := by
  have hlaid := h.laidOut hstaged
  have htypes : s.types.Lifts (fun n n' => n' = s.writing.type n)
      (s.stageLayouts s.layoutItems.1).committed.types := by
    refine .of_find? h.types_nodup hlaid.typeKeys fun id n n' hn hn' => ?_
    obtain rfl := h.distinct.id hn
    exact Option.some.inj (hn'.symm.trans (find?_types_laidOut hstaged hn))
  have hmembers : s.members.Lifts (fun m m' => m' = s.writing.member m)
      (s.stageLayouts s.layoutItems.1).committed.members := by
    refine .of_find? h.members_nodup hlaid.memberKeys fun id m m' hm hm' => ?_
    have hid : m.id = id := h.memberId _ (Table.mem_entries_of_find? hm)
    rw [← hid] at hm hm'
    exact Option.some.inj (hm'.symm.trans (find?_members_laidOut hstaged hm))
  rw [hlaid.rest, htypes.eq_mapValues, hmembers.eq_mapValues, through]

theorem nameOf_through (v : Veil) (id : Option TypeId) : (s.through v).nameOf id = s.nameOf id := by
  cases id with
  | none => rfl
  | some i =>
    rw [nameOf, Option.bind_some, through, Table.find?_mapValues, Option.map_map, nameOf,
      Option.bind_some]
    exact Option.map_congr fun n _ => v.qualifiedName n

theorem linkRecord_through (v : Veil) (typeString : String) (id : Option ReferenceId) :
    (s.through v).linkRecord typeString id = s.linkRecord typeString id := by
  simp only [linkRecord, nameOf_through]
  rfl

/-- The offsets of the members of a type after a pass. -/
def offsetsAfter (s : Store) (n : DeclaredType) : List (Option UInt32) :=
  (s.membersOf n.id).map fun m => (s.writing.member m).offset

/-- The record of a type after a pass: the one before, with another size and other offsets. -/
theorem typeRecord_laidOut (n : DeclaredType) :
    (s.through s.writing).typeRecord (s.writing.type n) =
      { s.typeRecord n with
        size := (s.writing.type n).size
        members := List.zipWith (fun r offset => { r with offset }) (s.typeRecord n).members
          (s.offsetsAfter n) } := by
  have hmembers : ((s.through s.writing).membersOf n.id).map (s.through s.writing).memberRecord =
      List.zipWith (fun r offset => { r with offset }) (s.typeRecord n).members
        (s.offsetsAfter n) := by
    rw [membersOf_through, List.map_map, typeRecord, offsetsAfter, List.zipWith_map,
      List.zipWith_self]
    refine List.map_congr_left fun m _ => ?_
    simp only [Function.comp_apply, memberRecord, linkRecord_through]
    rfl
  have hbases : (s.through s.writing).baseRecord = s.baseRecord := by
    funext b
    rw [baseRecord, nameOf_through, baseRecord]
  have harguments : (s.through s.writing).argumentRecord = s.argumentRecord := by
    funext a
    rw [argumentRecord, linkRecord_through, argumentRecord]
  simp only [typeRecord, Veil.id] at hmembers ⊢
  simp only [hmembers, hbases, harguments]
  rfl

theorem typedefRecord_laidOut (t : Typedef) :
    (s.through s.writing).typedefRecord t = s.typedefRecord t := by
  simp only [typedefRecord, linkRecord_through]
  rfl

/-- The document after a pass. -/
theorem ofStore_laidOut (s : Store) : Document.ofStore (s.through s.writing) =
    ⟨s.types.values.map fun n => (s.through s.writing).typeRecord (s.writing.type n),
      s.typedefs.values.map s.typedefRecord⟩ := by
  have htypedefs : (s.through s.writing).typedefs.values.map (s.through s.writing).typedefRecord =
      s.typedefs.values.map s.typedefRecord :=
    List.map_congr_left fun t _ => typedefRecord_laidOut t
  rw [Document.ofStore, htypedefs, through, Table.values_mapValues, List.map_map]
  rfl

/-- What a pass writes of an aggregate that is not ignored: the size and offsets of its layout. -/
theorem Sound.writing_of_written (h : s.Sound) (hstaged : s.staged = {}) {n : DeclaredType}
    (hn : n ∈ s.aggregates) (hplain : n.isIgnored = false) : ∃ l, s.layoutOf? n.id = some l ∧
      (∃ w, w.toNat = l.size ∧ (s.writing.type n).size = some w) ∧
      List.Forall₂ (fun (m : Member) (slot : MemberSlot) =>
        ∃ w, w.toNat = slot.offset ∧ (s.writing.member m).offset = some w)
        (s.membersOf n.id) l.members := by
  have hlaid := h.laidOut hstaged
  rw [h.committed_stageLayouts hstaged] at hlaid
  obtain ⟨l, hl, ⟨w, hw, hfind⟩, hslots⟩ := hlaid.written n hn hplain
  refine ⟨l, hl, ⟨w, hw, ?_⟩, ?_⟩
  · rw [through, Table.find?_mapValues, (h.mem_aggregates_iff.1 hn).1] at hfind
    exact congrArg DeclaredType.size (Option.some.inj hfind)
  · have hfound : ∀ m ∈ s.membersOf n.id, s.members.find? m.id = some m := fun m hm =>
      (h.mem_membersOf_iff.1 hm).1
    refine ((List.forall₂_and_left _ _).2 ⟨hfound, hslots⟩).imp fun m slot hm => ?_
    obtain ⟨hm, -, w, hw, hfind⟩ := hm
    rw [through, Table.find?_mapValues, hm] at hfind
    exact ⟨w, hw, congrArg Member.offset (Option.some.inj hfind)⟩

/-- A pass writes nothing of other types. -/
theorem Sound.writing_of_kept (h : s.Sound) (hstaged : s.staged = {}) {n : DeclaredType}
    (hn : s.types.find? n.id = some n) (hkept : n.isAggregate = false ∨ n.isIgnored = true) :
    s.writing.type n = n ∧ ∀ m ∈ s.membersOf n.id, s.writing.member m = m := by
  have hlaid := h.laidOut hstaged
  rw [h.committed_stageLayouts hstaged] at hlaid
  constructor
  · have hfind := hlaid.typesKept n.id n hn hkept
    rw [through, Table.find?_mapValues, hn] at hfind
    exact Option.some.inj hfind
  · intro m hm
    obtain ⟨hfound, howner⟩ := h.mem_membersOf_iff.1 hm
    have hfind := hlaid.membersKept m.id m hfound fun n' hn' => by
      rw [howner, hn] at hn'
      exact Option.some.inj hn' ▸ hkept
    rw [through, Table.find?_mapValues, hfound] at hfind
    exact Option.some.inj hfind

/-! ## Two passes -/

namespace SameDocument

variable (h : s.SameDocument s') (hstaged : s.staged = {}) (hstaged' : s'.staged = {})

include h hstaged hstaged'

/-- **What a pass leaves of twins is the same**: one size, and one offset for each member. -/
theorem written {n n' : DeclaredType} (hn : s.types.find? n.id = some n)
    (hn' : s'.types.find? n'.id = some n') (hrecord : s'.typeRecord n' = s.typeRecord n) :
    (s'.writing.type n').size = (s.writing.type n).size ∧
      s'.offsetsAfter n' = s.offsetsAfter n := by
  have haggregate : n'.isAggregate = n.isAggregate :=
    congrArg (fun r : TypeRecord => r.kind.isAggregate) hrecord
  have hignored : n'.isIgnored = n.isIgnored := congrArg TypeRecord.isIgnored hrecord
  by_cases hkept : n.isAggregate = false ∨ n.isIgnored = true
  · -- what was there before is there still
    obtain ⟨htype, hmembers⟩ := h.left.sound.writing_of_kept hstaged hn hkept
    obtain ⟨htype', hmembers'⟩ :=
      h.right.sound.writing_of_kept hstaged' hn' (by rwa [haggregate, hignored])
    have hoffsets := congrArg (fun r : TypeRecord => r.members.map MemberRecord.offset) hrecord
    simp only [typeRecord, List.map_map] at hoffsets
    rw [htype, htype', offsetsAfter, offsetsAfter,
      List.map_congr_left fun m hm => congrArg Member.offset (hmembers m hm),
      List.map_congr_left fun m hm => congrArg Member.offset (hmembers' m hm)]
    exact ⟨congrArg TypeRecord.size hrecord, hoffsets⟩
  · -- the layouts have the same sizes and offsets
    rw [not_or, Bool.not_eq_false, Bool.not_eq_true] at hkept
    obtain ⟨hagg, hplain⟩ := hkept
    obtain ⟨l, hl, ⟨w, hw, hsize⟩, hslots⟩ := h.left.sound.writing_of_written hstaged
      (h.left.sound.mem_aggregates_iff.2 ⟨hn, hagg⟩) hplain
    obtain ⟨l', hl', ⟨w', hw', hsize'⟩, hslots'⟩ := h.right.sound.writing_of_written hstaged'
      (h.right.sound.mem_aggregates_iff.2 ⟨hn', haggregate.trans hagg⟩) (hignored.trans hplain)
    have hlayouts := h.layoutOf? (h.twin_of_typeRecord (Table.mem_values_of_find? hn)
      (Table.mem_values_of_find? hn') hrecord)
    rw [hl, hl'] at hlayouts
    have hlike : l.Like l' := by
      cases hlayouts with
      | some hlike => exact hlike
    have hword : ∀ {w w' : UInt32} {x : Nat}, w.toNat = x → w'.toNat = x → w' = w := by
      rintro w w' _ rfl hw'
      exact UInt32.toNat_inj.1 hw'
    refine ⟨?_, ?_⟩
    · rw [hsize, hsize', hword hw (hw'.trans hlike.size)]
    · have hmoved : List.Forall₂ (fun (m : Member) (slot : MemberSlot) =>
          ∃ w, w.toNat = slot.offset ∧ (s.writing.member m).offset = some w)
          (s.membersOf n.id) l'.members := by
        refine forall₂_trans (fun m slot slot' hm hslot => ?_) hslots hlike.offsets
        rwa [hslot]
      refine map_eq_of_forall₂ (forall₂_trans (fun m slot m' hm hm' => ?_) hmoved hslots'.flip)
        fun _ _ hsame => hsame
      obtain ⟨w, hw, hm⟩ := hm
      obtain ⟨w', hw', hm'⟩ := hm'
      rw [hm, hm', hword hw hw']

/-- **A pass keeps documents the same.** -/
theorem laidOut : Document.ofStore (s'.stageLayouts s'.layoutItems.1).committed =
    Document.ofStore (s.stageLayouts s.layoutItems.1).committed := by
  have htypedefs :
      s'.typedefs.values.map s'.typedefRecord = s.typedefs.values.map s.typedefRecord :=
    congrArg Document.typedefs h.document
  rw [h.left.sound.committed_stageLayouts hstaged, h.right.sound.committed_stageLayouts hstaged',
    ofStore_laidOut, ofStore_laidOut, htypedefs, Document.mk.injEq]
  refine ⟨map_eq_of_forall₂ h.types fun n n' hpair => ?_, rfl⟩
  obtain ⟨hn, hn', hrecord⟩ := hpair
  obtain ⟨hsize, hoffsets⟩ := h.written hstaged hstaged' hn hn' hrecord
  rw [typeRecord_laidOut, typeRecord_laidOut, hrecord, hsize, hoffsets]

end SameDocument

/-- **Reloading does not disturb layout.** The document of a store with nothing staged can be
imported, and a layout pass over what has been imported leads to the same document as one over the
store, although all identities may be others. Positions of bases and template arguments are words;
for types with more of them than words count, see `export_import`. -/
theorem layout_reloaded (h : s.Ingested) (hstaged : s.staged = {}) (keepLayouts : Bool) :
    ∃ s' report report', (Document.ofStore s).toStore.value = .ok s' ∧
      (s.runLayout keepLayouts).outcome = .ok report ∧
      (s'.runLayout keepLayouts).outcome = .ok report' ∧
      ((Document.ofStore s).CountedInWords →
        Document.ofStore (s'.runLayout keepLayouts).store =
          Document.ofStore (s.runLayout keepLayouts).store) := by
  obtain ⟨s', himport, -, hexport⟩ := export_import h
  have h' : s'.Ingested := ⟨s', .inr ⟨_, himport⟩, .refl⟩
  have hstaged' : s'.staged = {} := Document.staged_toStore himport
  have hadmitted := h.sound.admitted_stageLayouts hstaged
  have hadmitted' := h'.sound.admitted_stageLayouts hstaged'
  refine ⟨s', _, _, himport, runLayout_of_admitted hadmitted keepLayouts,
    runLayout_of_admitted hadmitted' keepLayouts, fun hcounted => ?_⟩
  have hsame : s.SameDocument s' := ⟨h.readable, h'.readable, hexport hcounted⟩
  rw [store_runLayout_of_admitted hadmitted, store_runLayout_of_admitted hadmitted']
  exact hsame.laidOut hstaged hstaged'

/-- Operations after which a struct contains two of its kind, through a typedef, and another one is
derived from it and contains it too. -/
def loopedBy : List Operation :=
  [.addType { name := "Node", kind := .struct },
    .addMember ⟨1⟩ { name := "tag", typeString := "char", order := some 0 },
    .addMember ⟨1⟩ { name := "children", typeString := "Pair", order := some 1 },
    Operation.addTypedef "" "Pair" "Node[2]",
    .addType { name := "Leaf", kind := .struct }, .addBase ⟨8⟩ "Node",
    .addMember ⟨8⟩ { name := "node", typeString := "Node", order := some 0 }, .resolve 25]

def looped : Store := loopedBy.foldl perform empty

theorem ingested_looped : looped.Ingested := by
  have hrecordable : ∀ o ∈ loopedBy, o.Recordable := by
    simp [loopedBy, Operation.Recordable]
  exact ⟨empty, .inl rfl, leadsBy_foldl _ hrecordable _⟩

theorem layout_reloaded_looped : looped.Ingested ∧ looped.staged = {} ∧
    looped.aggregates.map (fun n => (looped.layoutOf? n.id).map fun l =>
      (l.size, l.members.map (·.offset))) = [some (12, [0, 4]), some (24, [12])] ∧
    ∃ s', (Document.ofStore looped).toStore.value = .ok s' ∧
      Document.ofStore (s'.runLayout true).store =
        Document.ofStore (looped.runLayout true).store := by
  have hstaged : looped.staged = {} := by decide +kernel
  have hordered : looped.Ordered := by decide +kernel
  have hcounted : (Document.ofStore looped).CountedInWords :=
    ingested_looped.sound.countedInWords (by decide +kernel) (by decide +kernel)
  obtain ⟨s', -, -, himport, -, -, hsame⟩ := layout_reloaded ingested_looped hstaged true
  refine ⟨ingested_looped, hstaged, ?_, s', himport, hsame hcounted⟩
  simp only [layoutOf?, laidOut, hordered.layoutInput_eq]
  decide +kernel

end Store

end DeclGraph
