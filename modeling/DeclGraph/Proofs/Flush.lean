import DeclGraph.Proofs.Tables

/-!
# What a flush commits

A batch is refused for one write that cannot stand, and committed as a whole otherwise.

* `Store.Admitted`: every staged write can stand.
* `Store.refusal?_eq_none`: these batches are the ones that are not refused.
* `Store.committed`: what becomes of the tables of a store when its batch is applied.
* `Store.resolution_committed` and its neighbours: what becomes of one entity. What is written once
  only comes from the first write of the batch, and sizes and offsets from the last.
-/

namespace DeclGraph

/-! What a declaration says of an entity, without what passes write. -/

def DeclaredType.declared (n : DeclaredType) : DeclaredType := { n with size := none }

def Member.declared (m : Member) : Member := { m with offset := none }

def BaseEdge.declared (b : BaseEdge) : BaseEdge := { b with target := none }

def TemplateArgument.declared (a : TemplateArgument) : TemplateArgument :=
  { a with reference := none }

def Reference.declared (r : Reference) : Reference :=
  { r with target := none, isPrimitive := false }

theorem Reference.isSome_resolution_apply (r : Reference) (found : Resolution) :
    (r.apply found).resolution.isSome = true := by
  cases found with
  | type id => rfl
  | primitive =>
    simp only [apply, resolution]
    cases r.target <;> rfl

theorem Reference.resolution_apply {r : Reference} (h : r.resolution = none)
    (found : Resolution) : (r.apply found).resolution = some found := by
  cases found with
  | type id => rfl
  | primitive =>
    cases ht : r.target with
    | none => simp [apply, resolution, ht]
    | some t => simp [resolution, ht] at h

theorem Reference.resolution_eq_type {r : Reference} {t : TypeId} :
    r.resolution = some (.type t) ↔ r.target = some t := by
  rw [resolution]
  cases r.target with
  | none => cases r.isPrimitive <;> simp
  | some t' => simp

/-- A reference that points at a type does not bear the primitive mark. -/
def Reference.Clear (r : Reference) : Prop := r.target = none ∨ r.isPrimitive = false

/-- What is unresolved is resolved in one way. -/
theorem Reference.clear_apply {r : Reference} (h : r.resolution = none) (found : Resolution) :
    (r.apply found).Clear := by
  have htarget : r.target = none := by
    cases ht : r.target with
    | none => rfl
    | some t => simp [resolution, ht] at h
  have hmark : r.isPrimitive = false := by simpa [resolution, htarget] using h
  cases found with
  | type t => exact .inr hmark
  | primitive => exact .inl htarget

theorem DeclaredType.qualifiedName_of_declared {a b : DeclaredType}
    (h : b.declared = a.declared) : b.qualifiedName = a.qualifiedName :=
  (congrArg qualifiedName h : b.declared.qualifiedName = a.declared.qualifiedName)

theorem DeclaredType.baseName_of_declared {a b : DeclaredType} (h : b.declared = a.declared) :
    b.baseName = a.baseName := (congrArg baseName h : b.declared.baseName = a.declared.baseName)

theorem Member.owner_of_declared {a b : Member} (h : b.declared = a.declared) :
    b.owner = a.owner := (congrArg owner h : b.declared.owner = a.declared.owner)

theorem Member.reference_of_declared {a b : Member} (h : b.declared = a.declared) :
    b.reference = a.reference :=
  (congrArg reference h : b.declared.reference = a.declared.reference)

theorem BaseEdge.owner_of_declared {a b : BaseEdge} (h : b.declared = a.declared) :
    b.owner = a.owner := (congrArg owner h : b.declared.owner = a.declared.owner)

theorem TemplateArgument.owner_of_declared {a b : TemplateArgument}
    (h : b.declared = a.declared) : b.owner = a.owner :=
  (congrArg owner h : b.declared.owner = a.declared.owner)

/-! What is not in the declaration is all that two entities of one declaration can differ in. -/

theorem DeclaredType.eq_of_declared {a b : DeclaredType} (h : b.declared = a.declared) :
    b = { a with size := b.size } := by
  cases a
  cases b
  simp only [declared, mk.injEq] at h ⊢
  simp only [h, and_self]

theorem Member.eq_of_declared {a b : Member} (h : b.declared = a.declared) :
    b = { a with offset := b.offset } := by
  cases a
  cases b
  simp only [declared, mk.injEq] at h ⊢
  simp only [h, and_self]

theorem BaseEdge.eq_of_declared {a b : BaseEdge} (h : b.declared = a.declared) :
    b = { a with target := b.target } := by
  cases a
  cases b
  simp only [declared, mk.injEq] at h ⊢
  simp only [h, and_self]

theorem TemplateArgument.eq_of_declared {a b : TemplateArgument}
    (h : b.declared = a.declared) : b = { a with reference := b.reference } := by
  cases a
  cases b
  simp only [declared, mk.injEq] at h ⊢
  simp only [h, and_self]

namespace Store

variable (s : Store)

/-- A reference that exists or is staged. -/
def Knows (id : ReferenceId) : Prop :=
  id ∈ s.references.keys ∨ ∃ r ∈ s.staged.references, r.id = id

/-- Every staged write is about something that exists, names only what exists, and contradicts
nothing that is committed. -/
structure Admitted : Prop where
  references : ∀ r ∈ s.staged.references, ∀ t, r.target = some t → t ∈ s.types.keys
  resolutions : ∀ w ∈ s.staged.resolutions, s.Knows w.1 ∧ ∀ t, w.2 = .type t →
    t ∈ s.types.keys ∧ ∀ r, s.references.find? w.1 = some r → r.target = none ∨ r.target = some t
  links : ∀ w ∈ s.staged.links, w.1 ∈ s.arguments.keys ∧ s.Knows w.2
  bases : ∀ w ∈ s.staged.bases, w.2 ∈ s.types.keys ∧
    ∃ b, s.bases.find? w.1 = some b ∧ (b.target = none ∨ b.target = some w.2)
  offsets : ∀ w ∈ s.staged.offsets, w.1 ∈ s.members.keys
  sizes : ∀ w ∈ s.staged.sizes, w.1 ∈ s.types.keys

variable {s}

theorem refuseType?_eq_none {id : TypeId} : s.refuseType? id = none ↔ id ∈ s.types.keys := by
  rw [refuseType?, ← Table.contains_iff]
  split <;> simp_all

theorem refuseReference?_eq_none {id : ReferenceId} :
    s.refuseReference? id = none ↔ s.Knows id := by
  simp only [refuseReference?, Knows, ← Table.contains_iff, ite_eq_left_iff, Bool.or_eq_true,
    List.any_eq_true, decide_eq_true_eq, reduceCtorEq, imp_false, not_not]

theorem refuseResolution?_eq_none {w : ReferenceId × Resolution} :
    s.refuseResolution? w = none ↔ s.Knows w.1 ∧ ∀ t, w.2 = .type t → t ∈ s.types.keys ∧
      ∀ r, s.references.find? w.1 = some r → r.target = none ∨ r.target = some t := by
  obtain ⟨id, found⟩ := w
  cases found with
  | primitive => simp [refuseResolution?, refuseReference?_eq_none]
  | type t =>
    cases hr : s.references.find? id with
    | none => simp [refuseResolution?, refuseReference?_eq_none, refuseType?_eq_none, hr]
    | some r =>
      cases ht : r.target with
      | none => simp [refuseResolution?, refuseReference?_eq_none, refuseType?_eq_none, hr, ht]
      | some existing =>
        simp [refuseResolution?, refuseReference?_eq_none, refuseType?_eq_none, hr, ht]

theorem refuseLink?_eq_none {w : ArgumentId × ReferenceId} :
    s.refuseLink? w = none ↔ w.1 ∈ s.arguments.keys ∧ s.Knows w.2 := by
  rw [refuseLink?, ← Table.contains_iff, ← refuseReference?_eq_none]
  split <;> simp_all

theorem refuseBase?_eq_none {w : BaseId × TypeId} :
    s.refuseBase? w = none ↔ w.2 ∈ s.types.keys ∧
      ∃ b, s.bases.find? w.1 = some b ∧ (b.target = none ∨ b.target = some w.2) := by
  obtain ⟨id, t⟩ := w
  cases hb : s.bases.find? id with
  | none => simp [refuseBase?, hb]
  | some b => cases ht : b.target <;> simp [refuseBase?, refuseType?_eq_none, hb, ht]

/-- **A batch that is not refused is admitted**, and the other way round. -/
theorem refusal?_eq_none : s.refusal? = none ↔ s.Admitted := by
  have hreference : ∀ r : Reference, r.target.bind s.refuseType? = none ↔
      ∀ t, r.target = some t → t ∈ s.types.keys := by
    intro r
    cases r.target <;> simp [refuseType?_eq_none]
  have hoffset : ∀ w : MemberId × UInt32, s.refuseOffset? w = none ↔ w.1 ∈ s.members.keys := by
    intro w
    rw [refuseOffset?, ← Table.contains_iff]
    split <;> simp_all
  simp only [refusal?, Option.orElse_eq_or, HOrElse.hOrElse, OrElse.orElse, Option.or_eq_none_iff,
    List.findSome?_eq_none_iff, hreference, refuseResolution?_eq_none, refuseLink?_eq_none,
    refuseBase?_eq_none, hoffset, refuseType?_eq_none]
  constructor
  · rintro ⟨h1, h2, h3, h4, h5, h6⟩
    exact ⟨h1, h2, h3, h4, h5, h6⟩
  · rintro ⟨h1, h2, h3, h4, h5, h6⟩
    exact ⟨h1, h2, h3, h4, h5, h6⟩

/-! ## Committing -/

/-- The references of a store with the staged ones. -/
def created (s : Store) : Table ReferenceId Reference :=
  s.staged.references.foldl (fun t r => t.insert r.id r) s.references

/-- The store after its batch has been applied. -/
def committed (s : Store) : Store := (s.discard.apply s.staged).2

/-- What applying a batch would count. -/
def changes (s : Store) : Changes := (s.discard.apply s.staged).1

theorem value_flush_of_admitted (h : s.Admitted) :
    s.flush.value = (.ok s.changes, s.committed) := by
  rw [flush, refusal?_eq_none.2 h]
  rfl

theorem value_flush_of_not_admitted (h : ¬s.Admitted) :
    ∃ e, s.flush.value = (.error e, s.discard) := by
  rw [← refusal?_eq_none, ← Ne, Option.ne_none_iff_exists'] at h
  obtain ⟨e, he⟩ := h
  rw [flush, he]
  exact ⟨e, rfl⟩

theorem admitted_of_flush {changes : Changes} {s' : Store}
    (h : s.flush.value = (.ok changes, s')) : s.Admitted ∧ s' = s.committed := by
  by_cases ha : s.Admitted
  · rw [value_flush_of_admitted ha] at h
    exact ⟨ha, (congrArg Prod.snd h).symm⟩
  · obtain ⟨e, he⟩ := value_flush_of_not_admitted ha
    cases he.symm.trans h

theorem eq_discard_of_flush {e : StoreError} {s' : Store}
    (h : s.flush.value = (.error e, s')) : s' = s.discard := by
  by_cases ha : s.Admitted
  · cases (value_flush_of_admitted ha).symm.trans h
  · obtain ⟨e, he⟩ := value_flush_of_not_admitted ha
    exact (congrArg Prod.snd (he.symm.trans h)).symm

@[simp] theorem references_committed : s.committed.references =
    (s.created.writeAll changeReference s.staged.resolutions).1 := rfl

/-- A flush leaves nothing staged, whether it commits its batch or refuses it. -/
theorem staged_flush (s : Store) : s.flush.value.2.staged = {} := by
  by_cases hadmitted : s.Admitted
  · rw [value_flush_of_admitted hadmitted]
    rfl
  · obtain ⟨e, he⟩ := value_flush_of_not_admitted hadmitted
    rw [he]
    rfl

/-- Where nothing is staged, there is nothing to commit. -/
theorem committed_of_staged (h : s.staged = {}) : s.committed = s := by
  cases s
  obtain rfl := h
  rfl

theorem staged_of_pending_eq_zero (h : s.pending = 0) : s.staged = {} := by
  have hsize : s.staged.size = 0 := h
  generalize s.staged = b at hsize ⊢
  obtain ⟨resolutions, references, links, bases, offsets, sizes⟩ := b
  simp only [Batch.size, Nat.add_eq_zero_iff, List.length_eq_zero_iff] at hsize
  obtain ⟨⟨⟨⟨⟨rfl, rfl⟩, rfl⟩, rfl⟩, rfl⟩, rfl⟩ := hsize
  rfl

/-! A batch leaves declarations as they are. -/

theorem lifts_types_committed (h : s.types.keys.Nodup) :
    s.types.Lifts (fun a b => b.declared = a.declared) s.committed.types := by
  refine Table.lifts_writeAll _ (fun w a b hb => ?_) h _
  simp only [changeType, Option.ite_none_left_eq_some] at hb
  rw [← Option.some.inj hb.2]
  rfl

theorem lifts_members_committed (h : s.members.keys.Nodup) :
    s.members.Lifts (fun a b => b.declared = a.declared) s.committed.members := by
  refine Table.lifts_writeAll _ (fun w a b hb => ?_) h _
  simp only [changeMember, Option.ite_none_left_eq_some] at hb
  rw [← Option.some.inj hb.2]
  rfl

theorem lifts_bases_committed (h : s.bases.keys.Nodup) :
    s.bases.Lifts (fun a b => b.declared = a.declared) s.committed.bases := by
  refine Table.lifts_writeAll _ (fun w a b hb => ?_) h _
  simp only [changeBase, Option.ite_none_right_eq_some] at hb
  rw [← Option.some.inj hb.2]
  rfl

theorem lifts_arguments_committed (h : s.arguments.keys.Nodup) :
    s.arguments.Lifts (fun a b => b.declared = a.declared) s.committed.arguments := by
  refine Table.lifts_writeAll _ (fun w a b hb => ?_) h _
  simp only [changeArgument, Option.ite_none_right_eq_some] at hb
  rw [← Option.some.inj hb.2]
  rfl

theorem lifts_references_committed (h : s.created.keys.Nodup) :
    s.created.Lifts (fun a b => b.declared = a.declared) s.committed.references := by
  refine Table.lifts_writeAll _ (fun w a b hb => ?_) h _
  simp only [changeReference, Option.ite_none_right_eq_some] at hb
  rw [← Option.some.inj hb.2]
  cases w <;> rfl

/-- A reference that has been resolved is not resolved again. -/
theorem changeReference_apply (r : Reference) (w w' : Resolution) :
    changeReference w' (r.apply w) = none := by
  refine if_neg fun hagain => ?_
  have hsome := r.isSome_resolution_apply w
  rw [(Reference.needsResolution_iff _).1 hagain] at hsome
  cases hsome

/-- Whether a reference is resolved can be seen from its resolution. -/
theorem changeReference_eq (w : Resolution) (r : Reference) :
    changeReference w r = if r.resolution.isNone then some (r.apply w) else none := by
  have hneeds := r.needsResolution_iff.trans Option.isNone_iff_eq_none.symm
  rw [changeReference, Bool.eq_iff_iff.2 hneeds]

/-! ## What becomes of each entity -/

/-- **A reference is resolved at most once**, as the first write of the batch says. -/
theorem resolution_committed {id : ReferenceId} {r : Reference}
    (hr : s.created.find? id = some r) : ∃ r', s.committed.references.find? id = some r' ∧
      r'.resolution = r.resolution.or (Table.firstWrite? s.staged.resolutions id) ∧
      (r' = r ∨ r.resolution = none ∧ ∃ w, r' = r.apply w) := by
  exact Table.find?_writeAll_fill changeReference_eq (fun w a ha => a.resolution_apply ha w) _ hr

/-- A reference is resolved at most once, and if a resolution of it is staged. -/
theorem find?_references_committed {id : ReferenceId} {r : Reference}
    (hr : s.created.find? id = some r) : ∃ r', s.committed.references.find? id = some r' ∧
      (r' = r ∨ r.resolution = none ∧ ∃ w, r' = r.apply w) ∧
        ∀ w, (id, w) ∈ s.staged.resolutions → r'.resolution.isSome = true := by
  obtain ⟨r', hr', hresolution, hchanged⟩ := resolution_committed hr
  refine ⟨r', hr', hchanged, fun w hw => ?_⟩
  rw [hresolution, Option.isSome_iff_exists]
  exact Table.exists_or_firstWrite? hw _

/-- A template argument is linked at most once, as the first write of the batch says. -/
theorem reference_committed {id : ArgumentId} {a : TemplateArgument}
    (ha : s.arguments.find? id = some a) : ∃ a', s.committed.arguments.find? id = some a' ∧
      a'.declared = a.declared ∧
      a'.reference = a.reference.or (Table.firstWrite? s.staged.links id) := by
  obtain ⟨a', ha', hreference, hchanged⟩ := Table.find?_writeAll_fill
    (f := TemplateArgument.reference) (g := fun w a => { a with reference := some w })
    (fun _ _ => rfl) (fun _ _ _ => rfl) s.staged.links ha
  refine ⟨a', ha', ?_, hreference⟩
  obtain rfl | ⟨-, w, rfl⟩ := hchanged
  · rfl
  · rfl

/-- A base is resolved at most once, as the first write of the batch says. -/
theorem target_committed {id : BaseId} {b : BaseEdge} (hb : s.bases.find? id = some b) :
    ∃ b', s.committed.bases.find? id = some b' ∧ b'.declared = b.declared ∧
      b'.target = b.target.or (Table.firstWrite? s.staged.bases id) := by
  obtain ⟨b', hb', htarget, hchanged⟩ := Table.find?_writeAll_fill
    (f := BaseEdge.target) (g := fun w b => { b with target := some w })
    (fun _ _ => rfl) (fun _ _ _ => rfl) s.staged.bases hb
  refine ⟨b', hb', ?_, htarget⟩
  obtain rfl | ⟨-, w, rfl⟩ := hchanged
  · rfl
  · rfl

/-- A member has the offset that was staged for it last. -/
theorem offset_committed {id : MemberId} {m : Member} (hm : s.members.find? id = some m) :
    ∃ m', s.committed.members.find? id = some m' ∧ m'.declared = m.declared ∧
      m'.offset = (Table.lastWrite? s.staged.offsets id).or m.offset := by
  have hsettle : ∀ w (m : Member),
      Table.settle changeMember m w = { m with offset := some w } := by
    intro w m
    rw [Table.settle, changeMember]
    split
    · next heq => simp [← heq]
    · rfl
  refine ⟨_, Table.find?_writeAll_set hsettle (fun _ _ _ => rfl) _ hm, ?_, ?_⟩
  · cases Table.lastWrite? s.staged.offsets id <;> rfl
  · cases Table.lastWrite? s.staged.offsets id <;> rfl

/-- A type has the size that was staged for it last. -/
theorem size_committed {id : TypeId} {n : DeclaredType} (hn : s.types.find? id = some n) :
    ∃ n', s.committed.types.find? id = some n' ∧ n'.declared = n.declared ∧
      n'.size = (Table.lastWrite? s.staged.sizes id).or n.size := by
  have hsettle : ∀ w (n : DeclaredType),
      Table.settle changeType n w = { n with size := some w } := by
    intro w n
    rw [Table.settle, changeType]
    split
    · next heq => simp [← heq]
    · rfl
  refine ⟨_, Table.find?_writeAll_set hsettle (fun _ _ _ => rfl) _ hn, ?_, ?_⟩
  · cases Table.lastWrite? s.staged.sizes id <;> rfl
  · cases Table.lastWrite? s.staged.sizes id <;> rfl

end Store

end DeclGraph
