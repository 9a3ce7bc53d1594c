import DeclGraph.Document.Export
import DeclGraph.Proofs.Consistency
import DeclGraph.Proofs.Declaring
import DeclGraph.Proofs.Independence

/-!
# Importing a document

A document whose names are distinct is imported, and the store that it makes is exported as what
the document keeps: of the names that resolutions carry those of its own types, and of the marks
those that stand beside no such name.

* `Document.kept`: what a document keeps.
* `Store.Files.batch_eq`: what is staged once all has been declared. `Store.Files.admitted`: **the
  batch is never refused**.
* `Store.Files.typeRecord_imported`, `Store.Files.typedefRecord_imported`: each record.
* `Document.Distinct.exists_toStore`: **the whole document.**
-/

namespace DeclGraph

/-! ## What a document keeps -/

namespace Document

variable (d : Document)

/-- The qualified names of the types. -/
def names : List String := d.types.map TypeRecord.qualifiedName

/-- A name, if it is that of a type of the document. -/
def known? (resolved : Option String) : Option String := resolved.filter (· ∈ d.names)

/-- A link keeps the name of a type of the document, and the primitive mark only without one. -/
def keptLink (r : LinkRecord) : LinkRecord :=
  { r with
    resolved := d.known? r.resolved
    primitive := r.primitive && (d.known? r.resolved).isNone }

/-- A base is never primitive. -/
def keptBase (r : LinkRecord) : LinkRecord :=
  { r with resolved := d.known? r.resolved, primitive := false }

/-- A member gets its order in writing, and keeps its signature only as a function pointer. -/
def keptMember (r : MemberRecord) (place : Nat) : MemberRecord :=
  { r with
    order := some (r.order.getD (UInt32.ofNat place))
    signature := if r.isFunctionPointer then r.signature else none
    resolved := (d.keptLink r.link).resolved
    primitive := (d.keptLink r.link).primitive }

/-- A typedef keeps what its link keeps. -/
def keptTypedef (r : TypedefRecord) : TypedefRecord :=
  { r with resolved := (d.keptLink r.link).resolved, primitive := (d.keptLink r.link).primitive }

/-- Bases and template arguments are counted in words, and members sorted by their orders. -/
def keptType (r : TypeRecord) : TypeRecord :=
  { r with
    bases := inWordOrder (r.bases.map d.keptBase)
    arguments := inWordOrder (r.arguments.map d.keptLink)
    members := (r.members.zipIdx.map fun p => d.keptMember p.1 p.2).mergeSort
      fun a b => (a.order.getD 0).toNat ≤ (b.order.getD 0).toNat }

/-- What is left of a document when it has been imported. -/
def kept : Document := ⟨d.types.map d.keptType, d.typedefs.map d.keptTypedef⟩

end Document

/-! ## Links of a store -/

namespace Store

/-- The record of a type string for which something was found, or nothing. -/
def foundRecord (s : Store) (typeString : String) : Option Resolution → LinkRecord
  | some (.type id) => { typeString, resolved := s.nameOf (some id) }
  | some .primitive => { typeString, primitive := true }
  | none => { typeString }

variable {s : Store}

theorem linkRecord_of_find? {id : ReferenceId} {r : Reference}
    (hr : s.references.find? id = some r) (hclear : r.Clear) (typeString : String) :
    s.linkRecord typeString (some id) = s.foundRecord typeString r.resolution := by
  simp only [linkRecord, Option.bind_some, hr, Reference.resolution]
  cases ht : r.target with
  | none => cases hp : r.isPrimitive <;> rfl
  | some t =>
    have hmark : r.isPrimitive = false := hclear.resolve_left (by simp [ht])
    rw [hmark]
    rfl

/-- A flush renames nothing. -/
theorem nameOf_committed (id : Option TypeId) : s.committed.nameOf id = s.nameOf id := by
  have hname : ∀ t, (s.committed.types.find? t).map (·.qualifiedName) =
      (s.types.find? t).map (·.qualifiedName) := by
    intro t
    cases ht : s.types.find? t with
    | none =>
      rw [Table.find?_eq_none_iff, ← keys_types_committed, ← Table.find?_eq_none_iff] at ht
      rw [ht]
    | some n =>
      obtain ⟨n', hn', hdeclared, -⟩ := size_committed ht
      rw [hn', Option.map_some, Option.map_some, DeclaredType.qualifiedName_of_declared hdeclared]
  cases id with
  | none => rfl
  | some t => exact hname t

/-! ## What is staged -/

/-- What a record says that its type string was resolved to. -/
def found (s : Store) (r : LinkRecord) : Option Resolution :=
  s.recordedResolution r.resolved r.primitive

/-- The type that a record says of a base. -/
def foundBase (s : Store) (r : LinkRecord) : Option TypeId :=
  (r.resolved.bind s.typeByName?).map (·.id)

/-- What is staged for things that have been declared is staged for one of them. -/
theorem exists_of_mem_writes {ι ρ ω : Type} {f : ι × ρ → Option ω} {declared : List (ι × ρ)}
    {w : ι × ω} (hw : w ∈ declared.filterMap fun p => (f p).map (p.1, ·)) :
    ∃ p ∈ declared, p.1 = w.1 ∧ f p = some w.2 := by
  obtain ⟨p, hp, heq⟩ := List.mem_filterMap.1 hw
  obtain ⟨x, hx, rfl⟩ := Option.map_eq_some_iff.1 heq
  exact ⟨p, hp, rfl, hx⟩

/-- The references that template arguments get, numbered from `n`. -/
def argumentReferences (s : Store) :
    Nat → List (ArgumentId × LinkRecord) → List (ArgumentId × Reference)
  | _, [] => []
  | n, (a, r) :: rest =>
    match s.found r with
    | none => s.argumentReferences n rest
    | some found =>
      (a, { (Reference.ofTypeString ⟨0⟩ r.typeString).apply found with id := ⟨n⟩ }) ::
        s.argumentReferences (n + 1) rest

/-- What is staged for a document that has been declared. -/
def recordedBatch (s : Store) (f : Filing) : Batch :=
  let news := s.argumentReferences s.nextId f.declared.parts.arguments
  { resolutions := f.links.filterMap fun l => (s.found l.2).map (l.1, ·)
    references := news.map Prod.snd
    links := news.map fun p => (p.1, p.2.id)
    bases := f.declared.parts.bases.filterMap fun p => (s.foundBase p.2).map (p.1, ·)
    offsets := f.declared.parts.members.filterMap fun p => p.2.offset.map (p.1, ·)
    sizes := f.types.filterMap fun p => p.2.size.map (p.1, ·) }

/-- The reference that a template argument of a document gets. -/
def newReference? (s : Store) (f : Filing) (a : ArgumentId) : Option Reference :=
  Table.firstWrite? (s.argumentReferences s.nextId f.declared.parts.arguments) a

theorem stageArguments_eq (declared : List (ArgumentId × LinkRecord)) : ∀ s : Store,
    s.stageArguments declared =
      ((s.argumentReferences s.nextId declared).map fun p => (p.1, p.2.id),
        { s with
          nextId := s.nextId + (s.argumentReferences s.nextId declared).length
          staged := { s.staged with
            references := s.staged.references ++
              (s.argumentReferences s.nextId declared).map Prod.snd } }) := by
  induction declared with
  | nil =>
    intro s
    simp [stageArguments, argumentReferences]
  | cons p rest ih =>
    intro s
    obtain ⟨a, r⟩ := p
    rw [stageArguments, argumentReferences, found]
    cases hfound : s.recordedResolution r.resolved r.primitive with
    | none => exact ih s
    | some found =>
      -- the look-up of names does not see what is staged
      have hsame : ∀ n b, ({ s with nextId := n, staged := b } : Store).argumentReferences =
          s.argumentReferences := by
        intro n b
        funext m l
        induction l generalizing m with
        | nil => rfl
        | cons q l ihl =>
          obtain ⟨a, r⟩ := q
          rw [argumentReferences, argumentReferences, ihl, ihl]
          rfl
      simp only [stageReference, ih, hsame, List.map_cons, List.length_cons, List.append_assoc,
        List.singleton_append, Nat.add_assoc, Nat.add_comm 1]

section Lookup

variable {n : Nat} {declared : List (ArgumentId × LinkRecord)}

/-- Each of the new references says what was found for its argument. -/
theorem map_argumentReferences (s : Store) (declared : List (ArgumentId × LinkRecord)) :
    ∀ n, (s.argumentReferences n declared).map (fun p => (p.1, p.2.resolution)) =
      declared.filterMap fun p => ((s.found p.2).map some).map (p.1, ·) := by
  induction declared with
  | nil => exact fun _ => rfl
  | cons p rest ih =>
    intro n
    obtain ⟨a, r⟩ := p
    rw [argumentReferences, List.filterMap_cons]
    dsimp only
    cases s.found r with
    | none => exact ih n
    | some found =>
      have hresolution := Reference.resolution_apply
        (r := .ofTypeString ⟨0⟩ r.typeString) rfl found
      rw [List.map_cons, ih]
      exact congrArg (fun x => (a, x) :: _) hresolution

/-- A new reference is that of an argument for which something was found. -/
theorem exists_of_mem_argumentReferences {p : ArgumentId × Reference}
    (hp : p ∈ s.argumentReferences n declared) :
    ∃ q ∈ declared, q.1 = p.1 ∧ s.found q.2 = p.2.resolution := by
  have hmem := List.mem_map_of_mem (f := fun p => (p.1, p.2.resolution)) hp
  rw [map_argumentReferences] at hmem
  obtain ⟨q, hq, hkey, hfound⟩ := exists_of_mem_writes hmem
  obtain ⟨w, hw, hresolution⟩ := Option.map_eq_some_iff.1 hfound
  exact ⟨q, hq, hkey, hw.trans hresolution⟩

theorem clear_argumentReferences (s : Store) (declared : List (ArgumentId × LinkRecord)) :
    ∀ n, ∀ p ∈ s.argumentReferences n declared, p.2.Clear := by
  induction declared with
  | nil => exact fun _ _ h => by cases h
  | cons p rest ih =>
    intro n q hq
    obtain ⟨a, r⟩ := p
    rw [argumentReferences] at hq
    cases hfound : s.found r with
    | none =>
      rw [hfound] at hq
      exact ih n q hq
    | some found =>
      rw [hfound] at hq
      rcases List.mem_cons.1 hq with rfl | hq
      · exact Reference.clear_apply (r := .ofTypeString ⟨0⟩ r.typeString) rfl found
      · exact ih (n + 1) q hq

/-- What was found for an argument decides whether it gets a reference. -/
theorem find?_argumentReferences (hnodup : (declared.map Prod.fst).Nodup)
    {p : ArgumentId × LinkRecord} (hp : p ∈ declared) :
    (Table.firstWrite? (s.argumentReferences n declared) p.1).map (·.resolution) =
      (s.found p.2).map some := by
  have hfind := Table.firstWrite?_filterMap (fun p => (s.found p.2).map some) hnodup hp
  rw [← s.map_argumentReferences declared n] at hfind
  rw [← hfind]
  exact (Table.find?_mapValues Reference.resolution ⟨s.argumentReferences n declared⟩ p.1).symm

end Lookup

/-- A resolution that a record says is to a type of the store. -/
theorem mem_keys_of_found {r : LinkRecord} {t : TypeId} (h : s.Sound)
    (ht : s.found r = some (.type t)) : t ∈ s.types.keys := by
  rw [found, recordedResolution] at ht
  split at ht
  · next n hn =>
    obtain ⟨name, -, hname⟩ := Option.bind_eq_some_iff.1 hn
    obtain rfl := Resolution.type.inj (Option.some.inj ht)
    have hmem := ((typeByName?_eq_some h).1 hname).1
    exact Table.mem_keys_of_find? (Table.find?_of_mem_values h.types_nodup h.typeId hmem)
  · split at ht
    · cases ht
    · cases ht

theorem mem_keys_of_foundBase {r : LinkRecord} {t : TypeId} (h : s.Sound)
    (ht : s.foundBase r = some t) : t ∈ s.types.keys := by
  obtain ⟨n, hn, rfl⟩ := Option.map_eq_some_iff.1 ht
  obtain ⟨name, -, hname⟩ := Option.bind_eq_some_iff.1 hn
  have hmem := ((typeByName?_eq_some h).1 hname).1
  exact Table.mem_keys_of_find? (Table.find?_of_mem_values h.types_nodup h.typeId hmem)

namespace Files

open Filing

variable {f : Filing} (h : s.Files f)

include h

theorem nodup_types : (f.types.map Prod.fst).Nodup := h.keys_types ▸ h.sound.types_nodup

theorem nodup_bases : (f.declared.parts.bases.map Prod.fst).Nodup := by
  have hkeys := Table.map_values h.sound.baseId
  rw [h.bases, map_entities BaseEdge.id fun _ _ _ _ => rfl] at hkeys
  exact hkeys ▸ h.sound.bases_nodup

theorem nodup_arguments : (f.declared.parts.arguments.map Prod.fst).Nodup := by
  have hkeys := Table.map_values h.sound.argumentId
  rw [h.arguments, map_entities TemplateArgument.id fun _ _ _ _ => rfl] at hkeys
  exact hkeys ▸ h.sound.arguments_nodup

theorem nodup_members : (f.declared.parts.members.map Prod.fst).Nodup := by
  have hkeys := Table.map_values h.sound.memberId
  rw [h.members, map_entities Member.id fun _ _ _ _ => rfl] at hkeys
  exact hkeys ▸ h.sound.members_nodup

theorem find?_typedef {p : TypedefId × TypedefRecord} (hp : p ∈ f.typedefs) :
    s.typedefs.find? p.1 = some (p.2.entity p.1) := by
  have hmem : p.2.entity p.1 ∈ s.typedefs.values := by
    rw [h.typedefs]
    exact List.mem_map_of_mem (f := fun p => p.2.entity p.1) hp
  exact Table.find?_of_mem_values h.sound.typedefs_nodup h.sound.typedefId hmem

theorem exists_member {p : MemberId × MemberRecord} (hp : p ∈ f.declared.parts.members) :
    ∃ m, s.members.find? p.1 = some m ∧ m.reference = some p.1.reference := by
  obtain ⟨owner, place, hmem⟩ := exists_entity MemberRecord.entity hp
  rw [← h.members] at hmem
  exact ⟨_, Table.find?_of_mem_values h.sound.members_nodup h.sound.memberId hmem, rfl⟩

theorem exists_base {p : BaseId × LinkRecord} (hp : p ∈ f.declared.parts.bases) :
    ∃ b, s.bases.find? p.1 = some b ∧ b.target = none := by
  obtain ⟨owner, place, hmem⟩ := exists_entity LinkRecord.base hp
  rw [← h.bases] at hmem
  exact ⟨_, Table.find?_of_mem_values h.sound.bases_nodup h.sound.baseId hmem, rfl⟩

theorem exists_argument {p : ArgumentId × LinkRecord} (hp : p ∈ f.declared.parts.arguments) :
    ∃ a, s.arguments.find? p.1 = some a ∧ a.reference = none := by
  obtain ⟨owner, place, hmem⟩ := exists_entity LinkRecord.argument hp
  rw [← h.arguments] at hmem
  exact ⟨_, Table.find?_of_mem_values h.sound.arguments_nodup h.sound.argumentId hmem, rfl⟩

/-- **What is staged once all has been declared**, from the records. -/
theorem batch_eq : ∃ n, s.stageRecorded f.declared =
    { s with nextId := n, staged := s.recordedBatch f } := by
  have htypedefs : f.typedefs.filterMap s.typedefResolution =
      (f.typedefs.map fun p => (p.1.reference, p.2.link)).filterMap
        fun l => (s.found l.2).map (l.1, ·) := by
    rw [List.filterMap_map]
    refine List.filterMap_congr fun p hp => ?_
    simp only [typedefResolution, h.find?_typedef hp, Function.comp_apply]
    exact (Option.map_eq_bind ..).symm
  have hmembers : f.declared.parts.members.filterMap s.memberResolution =
      (f.declared.parts.members.map fun p => (p.1.reference, p.2.link)).filterMap
        fun l => (s.found l.2).map (l.1, ·) := by
    rw [List.filterMap_map]
    refine List.filterMap_congr fun p hp => ?_
    obtain ⟨m, hm, hreference⟩ := h.exists_member hp
    simp only [memberResolution, hm, Option.bind_eq_bind, Option.bind_some, hreference,
      Function.comp_apply]
    exact (Option.map_eq_bind ..).symm
  have hbases : f.declared.parts.bases.filterMap s.baseResolution =
      f.declared.parts.bases.filterMap fun p => (s.foundBase p.2).map (p.1, ·) := by
    refine List.filterMap_congr fun p _ => ?_
    rw [baseResolution, foundBase, Option.map_map]
    exact (Option.map_eq_bind ..).symm
  have hlinks : f.links.filterMap (fun l => (s.found l.2).map (l.1, ·)) =
      f.typedefs.filterMap s.typedefResolution ++
        f.declared.parts.members.filterMap s.memberResolution := by
    rw [Filing.links, List.filterMap_append, htypedefs, hmembers]
    rfl
  refine ⟨s.nextId + (s.argumentReferences s.nextId f.declared.parts.arguments).length, ?_⟩
  rw [recordedBatch, hlinks, ← hbases]
  simp only [stageRecorded, stageArguments_eq, stageResolutions, stageBases, stageLinks,
    stageOffsets, stageSizes, h.staged, List.nil_append]
  rfl

theorem sound_stageRecorded : (s.stageRecorded f.declared).Sound :=
  (leadsBy_stageRecorded s f.declared).leads.sound h.sound

/-- **No document stages anything that is refused.** -/
theorem admitted : (s.stageRecorded f.declared).Admitted := by
  have hfound : ∀ {r t}, s.found r = some (.type t) → t ∈ s.types.keys := mem_keys_of_found h.sound
  have hbase : ∀ {r t}, s.foundBase r = some t → t ∈ s.types.keys := mem_keys_of_foundBase h.sound
  obtain ⟨n, hbatch⟩ := h.batch_eq
  rw [hbatch]
  constructor
  case references =>
    intro r hr t ht
    obtain ⟨p, hp, rfl⟩ := List.mem_map.1 hr
    obtain ⟨q, -, -, hq⟩ := exists_of_mem_argumentReferences hp
    rw [Reference.resolution_eq_type.2 ht] at hq
    exact hfound hq
  case resolutions =>
    -- what a document resolves has just been declared, so that it is not resolved yet
    intro w hw
    obtain ⟨l, hl, hkey, hw⟩ := exists_of_mem_writes hw
    have hr := h.references l hl
    rw [hkey] at hr
    refine ⟨.inl (Table.mem_keys_of_find? hr), fun t ht => ⟨?_, fun r hr' => .inl ?_⟩⟩
    · rw [ht] at hw
      exact hfound hw
    · obtain rfl := Option.some.inj (hr.symm.trans hr')
      rfl
  case links =>
    intro w hw
    obtain ⟨p, hp, rfl⟩ := List.mem_map.1 hw
    obtain ⟨q, hq, hkey, -⟩ := exists_of_mem_argumentReferences hp
    obtain ⟨a, ha, -⟩ := h.exists_argument hq
    exact ⟨hkey ▸ Table.mem_keys_of_find? ha, .inr ⟨p.2, List.mem_map_of_mem hp, rfl⟩⟩
  case bases =>
    intro w hw
    obtain ⟨p, hp, hkey, hw⟩ := exists_of_mem_writes hw
    obtain ⟨b, hb, htarget⟩ := h.exists_base hp
    exact ⟨hbase hw, b, hkey ▸ hb, .inl htarget⟩
  case offsets =>
    intro w hw
    obtain ⟨p, hp, hkey, -⟩ := exists_of_mem_writes hw
    obtain ⟨m, hm, -⟩ := h.exists_member hp
    exact hkey ▸ Table.mem_keys_of_find? hm
  case sizes =>
    intro w hw
    obtain ⟨p, hp, hkey, -⟩ := exists_of_mem_writes hw
    have hmem := List.mem_map_of_mem (f := Prod.fst) hp
    rw [← h.keys_types] at hmem
    exact hkey ▸ hmem

/-! ## The imported store -/

variable {s' : Store} (hs' : s' = (s.stageRecorded f.declared).committed)

include hs'

theorem sound_imported : s'.Sound := hs' ▸ h.sound_stageRecorded.committed h.admitted

theorem nameOf_imported (id : Option TypeId) : s'.nameOf id = s.nameOf id := by
  obtain ⟨n, hbatch⟩ := h.batch_eq
  rw [hs', nameOf_committed, hbatch]
  rfl

theorem values_types_imported :
    s'.types.values = f.types.map fun p => { p.2.entity p.1 with size := p.2.size } := by
  have hvalues := h.sound_stageRecorded.values_types_committed
  obtain ⟨n, hbatch⟩ := h.batch_eq
  rw [hbatch] at hs' hvalues
  rw [hs', hvalues]
  dsimp only
  rw [h.types, List.map_map]
  refine List.map_congr_left fun p hp => ?_
  have hlast := Table.lastWrite?_filterMap (fun p => p.2.size) h.nodup_types hp
  exact congrArg (fun size => { p.2.entity p.1 with size })
    ((congrArg (·.or none) hlast).trans (Option.or_none ..))

theorem values_members_imported : s'.members.values = entities (·.members)
    (fun o i a r => { MemberRecord.entity o i a r with offset := r.offset }) f.parts := by
  have hvalues := h.sound_stageRecorded.values_members_committed
  obtain ⟨n, hbatch⟩ := h.batch_eq
  rw [hbatch] at hs' hvalues
  rw [hs', hvalues]
  dsimp only
  rw [h.members]
  refine map_entities_eq fun p hp o i => ?_
  have hlast := Table.lastWrite?_filterMap (fun p => p.2.offset) h.nodup_members hp
  exact congrArg (fun offset => { MemberRecord.entity o i p.1 p.2 with offset })
    ((congrArg (·.or none) hlast).trans (Option.or_none ..))

theorem values_bases_imported : s'.bases.values = entities (·.bases)
    (fun o i a r => { LinkRecord.base o i a r with target := s.foundBase r }) f.parts := by
  have hvalues := h.sound_stageRecorded.values_bases_committed
  obtain ⟨n, hbatch⟩ := h.batch_eq
  rw [hbatch] at hs' hvalues
  rw [hs', hvalues]
  dsimp only
  rw [h.bases]
  refine map_entities_eq fun p hp o i => ?_
  have hfirst := Table.firstWrite?_filterMap (fun p => s.foundBase p.2) h.nodup_bases hp
  exact congrArg (fun target => { LinkRecord.base o i p.1 p.2 with target }) hfirst

theorem values_arguments_imported : s'.arguments.values = entities (·.arguments)
    (fun o i a r => { LinkRecord.argument o i a r with
      reference := (s.newReference? f a).map (·.id) }) f.parts := by
  have hvalues := h.sound_stageRecorded.values_arguments_committed
  obtain ⟨n, hbatch⟩ := h.batch_eq
  rw [hbatch] at hs' hvalues
  rw [hs', hvalues]
  dsimp only
  rw [h.arguments]
  refine map_entities_eq fun p hp o i => ?_
  have hlink := Table.find?_mapValues Reference.id
    ⟨s.argumentReferences s.nextId f.declared.parts.arguments⟩ p.1
  exact congrArg (fun reference => { LinkRecord.argument o i p.1 p.2 with reference }) hlink

/-- A reference of a typedef or member is resolved as its record says. -/
theorem find?_link {l : ReferenceId × LinkRecord} (hl : l ∈ f.links) :
    ∃ r, s'.references.find? l.1 = some r ∧ r.typeString = l.2.typeString ∧
      r.resolution = s.found l.2 ∧ r.Clear := by
  have hsound := h.sound_stageRecorded
  obtain ⟨n, hbatch⟩ := h.batch_eq
  rw [hbatch] at hs' hsound
  subst hs'
  obtain ⟨r, hr, hresolution, hchanged⟩ :=
    resolution_committed (hsound.find?_created.2 (.inl (h.references l hl)))
  have hfirst := Table.firstWrite?_filterMap (fun l => s.found l.2) h.links hl
  refine ⟨r, hr, ?_, hresolution.trans hfirst, ?_⟩
  · obtain rfl | ⟨-, w, rfl⟩ := hchanged
    · rfl
    · cases w <;> rfl
  · obtain rfl | ⟨-, w, rfl⟩ := hchanged
    · exact .inl rfl
    · exact Reference.clear_apply rfl w

/-- A reference that a template argument gets is there as it was staged. -/
theorem find?_newReference {a : ArgumentId} {r : Reference} (hr : s.newReference? f a = some r) :
    s'.references.find? r.id = some r := by
  have hsound := h.sound_stageRecorded
  obtain ⟨n, hbatch⟩ := h.batch_eq
  rw [hbatch] at hs' hsound
  subst hs'
  have hmem := Table.mem_entries_of_find? hr
  have hstaged : r ∈ (s.recordedBatch f).references := List.mem_map_of_mem (f := Prod.snd) hmem
  obtain ⟨r', hr', -, hchanged⟩ :=
    resolution_committed (hsound.find?_created.2 (.inr ⟨hstaged, rfl⟩))
  obtain rfl | ⟨hnone, -⟩ := hchanged
  · exact hr'
  · -- nothing is staged for an argument that is not resolved
    have hsome := List.mem_map_of_mem (f := fun p => (p.1, p.2.resolution)) hmem
    rw [map_argumentReferences] at hsome
    obtain ⟨q, -, hfound⟩ := List.mem_filterMap.1 hsome
    obtain ⟨x, hx, heq⟩ := Option.map_eq_some_iff.1 hfound
    obtain ⟨w, -, rfl⟩ := Option.map_eq_some_iff.1 hx
    cases (Prod.mk.inj heq).2.trans hnone

/-! ## The exported records -/

variable {d : Document} (hf : f.Complete d)

include hf

omit hs' in
/-- The document knows the names that the store knows. -/
theorem name_typeByName? (resolved : Option String) :
    (resolved.bind s.typeByName?).map (·.qualifiedName) = d.known? resolved := by
  have hnames : d.names = s.types.values.map (·.qualifiedName) := by
    rw [Document.names, ← hf.types, h.types, List.map_map, List.map_map]
    rfl
  cases resolved with
  | none => rfl
  | some name =>
    rw [Option.bind_some, Document.known?, hnames]
    cases hn : s.typeByName? name with
    | some n =>
      obtain ⟨hmem, rfl⟩ := (typeByName?_eq_some h.sound).1 hn
      have hknown : n.qualifiedName ∈ s.types.values.map (·.qualifiedName) :=
        List.mem_map_of_mem hmem
      rw [Option.map_some, Option.filter_some_pos (by simpa using hknown)]
    | none =>
      have hnew : name ∉ s.types.values.map (·.qualifiedName) := by
        intro hmem
        obtain ⟨n, hvalue, hname⟩ := List.mem_map.1 hmem
        cases hn.symm.trans ((typeByName?_eq_some h.sound).2 ⟨hvalue, hname⟩)
      exact (Option.filter_some_neg (by simpa using hnew)).symm

theorem nameOf_typeByName? (resolved : Option String) :
    s'.nameOf ((resolved.bind s.typeByName?).map (·.id)) = d.known? resolved := by
  rw [← h.name_typeByName? hf, h.nameOf_imported hs']
  cases hn : resolved.bind s.typeByName? with
  | none => rfl
  | some n =>
    obtain ⟨name, -, hname⟩ := Option.bind_eq_some_iff.1 hn
    have hmem := ((typeByName?_eq_some h.sound).1 hname).1
    have hfind := Table.find?_of_mem_values h.sound.types_nodup h.sound.typeId hmem
    rw [Option.map_some, nameOf, Option.bind_some, hfind]

/-- What was found is written as the link that the document keeps. -/
theorem foundRecord_found (r : LinkRecord) :
    s'.foundRecord r.typeString (s.found r) = d.keptLink r := by
  have hname := h.nameOf_typeByName? hs' hf r.resolved
  have hknown := h.name_typeByName? hf r.resolved
  rw [Document.keptLink, found, recordedResolution]
  cases hn : r.resolved.bind s.typeByName? with
  | some n =>
    rw [hn, Option.map_some] at hname hknown
    simp only [foundRecord, hname, ← hknown, Option.isNone_some, Bool.and_false]
  | none =>
    rw [hn, Option.map_none] at hknown
    rw [← hknown]
    cases r.primitive <;> rfl

theorem linkRecord_link {l : ReferenceId × LinkRecord} (hl : l ∈ f.links) :
    s'.linkRecord l.2.typeString (some l.1) = d.keptLink l.2 := by
  obtain ⟨r, hr, -, hresolution, hclear⟩ := h.find?_link hs' hl
  rw [linkRecord_of_find? hr hclear, hresolution]
  exact h.foundRecord_found hs' hf l.2

theorem linkRecord_newReference {p : ArgumentId × LinkRecord}
    (hp : p ∈ f.declared.parts.arguments) :
    s'.linkRecord p.2.typeString ((s.newReference? f p.1).map (·.id)) = d.keptLink p.2 := by
  rw [← h.foundRecord_found hs' hf p.2]
  have hfound : (s.newReference? f p.1).map (·.resolution) = (s.found p.2).map some :=
    find?_argumentReferences h.nodup_arguments hp
  cases hr : s.newReference? f p.1 with
  | none =>
    rw [hr, Option.map_none] at hfound
    rw [Option.map_eq_none_iff.1 hfound.symm]
    rfl
  | some r =>
    rw [hr, Option.map_some] at hfound
    obtain ⟨w, hw, heq⟩ := Option.map_eq_some_iff.1 hfound.symm
    have hclear : r.Clear :=
      s.clear_argumentReferences _ _ _ (Table.mem_entries_of_find? hr)
    rw [Option.map_some, linkRecord_of_find? (h.find?_newReference hs' hr) hclear, hw, heq]

/-- **A typedef is written as the document keeps it.** -/
theorem typedefRecord_imported {p : TypedefId × TypedefRecord} (hp : p ∈ f.typedefs) :
    s'.typedefRecord (p.2.entity p.1) = d.keptTypedef p.2 := by
  have hl : (p.1.reference, p.2.link) ∈ f.links :=
    List.mem_append_left _ (List.mem_map_of_mem (f := fun p => (p.1.reference, p.2.link)) hp)
  obtain ⟨r, hr, htarget, -⟩ := h.find?_link hs' hl
  have hlink := h.linkRecord_link hs' hf hl
  simp only [typedefRecord, TypedefRecord.entity, hr, Option.map_some, Option.getD_some, htarget]
  rw [hlink, Document.keptTypedef]
  rfl

theorem memberRecord_imported {p : MemberId × MemberRecord}
    (hp : p ∈ f.declared.parts.members) (owner : TypeId) (place : Nat) :
    s'.memberRecord { MemberRecord.entity owner place p.1 p.2 with offset := p.2.offset } =
      d.keptMember p.2 place := by
  have hl : (p.1.reference, p.2.link) ∈ f.links :=
    List.mem_append_right _ (List.mem_map_of_mem (f := fun p => (p.1.reference, p.2.link)) hp)
  have hlink : s'.linkRecord p.2.typeString (some p.1.reference) = d.keptLink p.2.link :=
    h.linkRecord_link hs' hf hl
  simp only [memberRecord, MemberRecord.entity, hlink, Document.keptMember]

theorem baseRecord_imported (owner : TypeId) (place : Nat) (id : BaseId) (r : LinkRecord) :
    s'.baseRecord { LinkRecord.base owner place id r with target := s.foundBase r } =
      d.keptBase r := by
  have hname : s'.nameOf (s.foundBase r) = d.known? r.resolved :=
    h.nameOf_typeByName? hs' hf r.resolved
  simp only [baseRecord, LinkRecord.base, hname, Document.keptBase]

section Reads

variable {p : TypeId × TypeRecord} {g : TypeId × DeclaredParts} (hg : g ∈ f.parts)
  (hcovers : Covers p g)

include hg hcovers

theorem members_imported :
    (s'.membersOf p.1).map s'.memberRecord = (d.keptType p.2).members := by
  have hvalues := h.values_members_imported hs'
  have hids : s'.members.values.Pairwise (·.id.val < ·.id.val) := by
    rw [hvalues]
    exact entities_rise Member.id (fun _ _ _ _ => rfl) (fun _ _ _ _ => rfl)
      (h.members ▸ h.memberIds)
  have hrecords : (placed (fun o i a r =>
        { MemberRecord.entity o i a r with offset := r.offset }) g.1 g.2.members).map
          s'.memberRecord = p.2.members.zipIdx.map fun q => d.keptMember q.1 q.2 := by
    rw [← hcovers.members, placed, List.map_map, List.zipIdx_map, List.map_map]
    refine List.map_congr_left fun q hq => ?_
    have hmem : q.1 ∈ g.2.members := by
      have hfst := List.mem_map_of_mem (f := Prod.fst) hq
      rwa [List.zipIdx_map_fst] at hfst
    exact h.memberRecord_imported hs' hf (List.mem_flatMap.2 ⟨g, hg, hmem⟩) g.1 q.2
  rw [(h.sound_imported hs').membersOf_eq p.1 hids, hvalues, ← hcovers.owner,
    filter_entities Member.owner (fun _ _ _ _ => rfl) h.owners hg, Document.keptType,
    ← hrecords]
  exact List.map_mergeSort fun _ _ _ _ => rfl

theorem bases_imported : (s'.basesOf p.1).map s'.baseRecord = (d.keptType p.2).bases := by
  have hvalues := h.values_bases_imported hs'
  have hids : s'.bases.values.Pairwise (·.id.val < ·.id.val) := by
    rw [hvalues]
    exact entities_rise BaseEdge.id (fun _ _ _ _ => rfl) (fun _ _ _ _ => rfl)
      (h.bases ▸ h.baseIds)
  rw [(h.sound_imported hs').basesOf_eq p.1 hids, hvalues, ← hcovers.owner,
    filter_entities BaseEdge.owner (fun _ _ _ _ => rfl) h.owners hg,
    Document.keptType, ← hcovers.bases]
  exact map_mergeSort_placed BaseEdge.order (fun _ _ _ _ => rfl) s'.baseRecord d.keptBase
    fun q _ i => h.baseRecord_imported hs' hf g.1 i q.1 q.2

theorem arguments_imported :
    (s'.argumentsOf p.1).map s'.argumentRecord = (d.keptType p.2).arguments := by
  have hvalues := h.values_arguments_imported hs'
  have hids : s'.arguments.values.Pairwise (·.id.val < ·.id.val) := by
    rw [hvalues]
    exact entities_rise TemplateArgument.id (fun _ _ _ _ => rfl) (fun _ _ _ _ => rfl)
      (h.arguments ▸ h.argumentIds)
  rw [(h.sound_imported hs').argumentsOf_eq p.1 hids, hvalues, ← hcovers.owner,
    filter_entities TemplateArgument.owner (fun _ _ _ _ => rfl) h.owners hg,
    Document.keptType, ← hcovers.arguments]
  exact map_mergeSort_placed TemplateArgument.position (fun _ _ _ _ => rfl) s'.argumentRecord
    d.keptLink fun q hq _ => h.linkRecord_newReference hs' hf (List.mem_flatMap.2 ⟨g, hg, hq⟩)

/-- **A type is written as the document keeps it.** -/
theorem typeRecord_imported :
    s'.typeRecord { p.2.entity p.1 with size := p.2.size } = d.keptType p.2 := by
  have hmembers := h.members_imported hs' hf hg hcovers
  have hbases := h.bases_imported hs' hf hg hcovers
  have harguments := h.arguments_imported hs' hf hg hcovers
  simp only [typeRecord, TypeRecord.entity, hmembers, hbases, harguments]
  rfl

end Reads

/-- What is imported is exported as what the document keeps. -/
theorem ofStore_imported : Document.ofStore s' = d.kept := by
  have htypes : s'.types.values.map s'.typeRecord = d.types.map d.keptType := by
    rw [h.values_types_imported hs', ← hf.types, List.map_map, List.map_map]
    refine List.map_congr_left fun p hp => ?_
    obtain ⟨g, hg, hcovers⟩ := exists_of_forall₂ hf.parts.flip p hp
    exact h.typeRecord_imported hs' hf hg hcovers
  have htypedefs : s'.typedefs.values.map s'.typedefRecord = d.typedefs.map d.keptTypedef := by
    have hvalues : s'.typedefs.values = s.typedefs.values := by
      obtain ⟨n, hbatch⟩ := h.batch_eq
      rw [hs', hbatch]
      rfl
    rw [hvalues, h.typedefs, ← hf.typedefs, List.map_map, List.map_map]
    exact List.map_congr_left fun p hp => h.typedefRecord_imported hs' hf hp
  rw [Document.ofStore, htypes, htypedefs]
  rfl

end Files

end Store

/-! ## The whole document -/

/-- **A document whose names are distinct is imported, and exported as what it keeps.** -/
theorem Document.Distinct.exists_toStore {d : Document} (hd : d.Distinct) :
    ∃ s, d.toStore.value = .ok s ∧ ofStore s = d.kept := by
  obtain ⟨f, s, hok, h, hf⟩ := hd.exists_files
  refine ⟨(s.stageRecorded f.declared).committed, ?_, h.ofStore_imported rfl hf⟩
  rw [toStore]
  simp only [hok]
  split
  · next hpending =>
    -- nothing is staged, so that there is nothing to commit
    have hstaged := Store.staged_of_pending_eq_zero hpending
    rw [Store.committed_of_staged hstaged]
    rfl
  · rw [Noted.value_bind, Store.value_flush_of_admitted h.admitted]
    rfl

end DeclGraph
