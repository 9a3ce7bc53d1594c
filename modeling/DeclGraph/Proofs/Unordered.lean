import DeclGraph.Proofs.Persistence

/-!
# Batches without repeated keys

A batch in which each entity is written at most once is a set of writes. No write then reads what
another one has written, so that the order in which they are staged decides neither whether the
batch is accepted nor what becomes of the store. What the flush counts are the entities whose field
it has changed, and a batch that has been committed can be committed again, to no effect.

* `Table.writeAll_perm`: writes under distinct keys commute.
* `Table.writeAll_eq_differences`: what a batch counts are the values whose field differs.
* `Table.writeAll_again`: writes that have been done change nothing more.
* `Write`, `Store.stageAll`: writes that are staged one by one.
* `Store.flush_unordered`: **a batch without repeated keys is a set of writes.**
-/

namespace DeclGraph

/-! ## Writes under distinct keys -/

namespace Table

variable {κ α ω φ : Type} [DecidableEq κ] {t t' : Table κ α} {change : ω → α → Option α}
  {ws ws' : List (κ × ω)} {k : κ}

/-- A table is given by its keys and what is found under them. -/
theorem eq_of_find? (hnodup : t.keys.Nodup) (hkeys : t'.keys = t.keys)
    (h : ∀ k, t'.find? k = t.find? k) : t' = t := by
  have hlifts : t.Lifts (fun a b => b = a) t' := .of_find? hnodup hkeys fun k a b ha hb =>
    Option.some.inj (hb.symm.trans ((h k).trans ha))
  rw [hlifts.eq_mapValues, mapValues_id]

theorem firstWrite?_eq_some (hws : (ws.map Prod.fst).Nodup) {w : κ × ω} (hw : w ∈ ws) :
    firstWrite? ws w.1 = some w.2 :=
  find?_of_mem_entries hws hw

theorem firstWrite?_perm (hws : (ws.map Prod.fst).Nodup) (hperm : ws'.Perm ws) (k : κ) :
    firstWrite? ws' k = firstWrite? ws k := by
  have hws' : (ws'.map Prod.fst).Nodup := (hperm.map Prod.fst).nodup_iff.2 hws
  refine Option.ext fun w => ?_
  exact (find?_eq_some_iff hws').trans (hperm.mem_iff.trans (find?_eq_some_iff hws).symm)

/-- Of distinct keys, at most one write is for `k`. -/
theorem filter_eq_firstWrite? (hws : (ws.map Prod.fst).Nodup) (k : κ) :
    (ws.filter (·.1 = k)).map Prod.snd = (firstWrite? ws k).toList := by
  induction ws with
  | nil => rfl
  | cons w ws ih =>
    obtain ⟨l, w⟩ := w
    rw [List.map_cons, List.nodup_cons] at hws
    rw [firstWrite?, find?_cons, List.filter_cons]
    by_cases hl : l = k
    · subst hl
      have hnone : firstWrite? ws l = none := find?_eq_none_iff.2 hws.1
      rw [if_pos (by simp), List.map_cons, ih hws.2, hnone, if_pos rfl]
      rfl
    · rw [if_neg (by simpa using hl), if_neg hl]
      exact ih hws.2

/-- **A value is settled by the one write of its key.** -/
theorem find?_writeAll_of_nodup (hws : (ws.map Prod.fst).Nodup) (t : Table κ α) (k : κ) :
    (writeAll change t ws).1.find? k =
      (t.find? k).map fun a => (firstWrite? ws k).elim a (settle change a) := by
  rw [find?_writeAll, filter_eq_firstWrite? hws]
  cases firstWrite? ws k <;> rfl

/-- **Writes under distinct keys commute.** -/
theorem writeAll_perm (ht : t.keys.Nodup) (hws : (ws.map Prod.fst).Nodup)
    (hperm : ws'.Perm ws) : (writeAll change t ws').1 = (writeAll change t ws).1 := by
  have hws' : (ws'.map Prod.fst).Nodup := (hperm.map Prod.fst).nodup_iff.2 hws
  refine eq_of_find? (keys_writeAll t ws ▸ ht) ?_ fun k => ?_
  · rw [keys_writeAll, keys_writeAll]
  · rw [find?_writeAll_of_nodup hws', find?_writeAll_of_nodup hws, firstWrite?_perm hws hperm]

/-- A change shows in the field `f`, and once it has been made it makes no difference any more. -/
structure Lasting (change : ω → α → Option α) (f : α → φ) : Prop where
  shows : ∀ {w a b}, change w a = some b → f b ≠ f a
  again : ∀ {w a b}, change w a = some b → change w b = none

theorem Lasting.change_settle {f : α → φ} (h : Lasting change f) (w : ω) (a : α) :
    change w (settle change a w) = none := by
  rw [settle]
  cases hw : change w a with
  | none => exact hw
  | some b => exact h.again hw

/-- A change shows in a field if it shows in what the field decides. -/
theorem Lasting.of_eq {χ : Type} {f : α → φ} {g : α → χ} (h : Lasting change f)
    (hg : ∀ a b, g b = g a → f b = f a) : Lasting change g where
  shows hab heq := h.shows hab (hg _ _ heq)
  again := h.again

/-- A field that is filled while it is empty. -/
theorem lasting_of_fill {f : α → Option ω} {g : ω → α → α}
    (hchange : ∀ w a, change w a = if (f a).isNone then some (g w a) else none)
    (hfill : ∀ w a, f a = none → f (g w a) = some w) : Lasting change f where
  shows {w a b} hab := by
    rw [hchange, Option.ite_none_right_eq_some, Option.some.injEq] at hab
    have hnone := Option.isNone_iff_eq_none.1 hab.1
    rw [← hab.2, hfill w a hnone, hnone]
    exact Option.some_ne_none w
  again {w a b} hab := by
    rw [hchange, Option.ite_none_right_eq_some, Option.some.injEq] at hab
    rw [hchange, ← hab.2, hfill w a (Option.isNone_iff_eq_none.1 hab.1)]
    rfl

/-- A field that is overwritten by what differs from it. -/
theorem lasting_of_set [DecidableEq ω] {f : α → Option ω} {g : ω → α → α}
    (hchange : ∀ w a, change w a = if f a = some w then none else some (g w a))
    (hset : ∀ w a, f (g w a) = some w) : Lasting change f where
  shows {w a b} hab := by
    rw [hchange, Option.ite_none_left_eq_some, Option.some.injEq] at hab
    rw [← hab.2, hset]
    exact Ne.symm hab.1
  again {w a b} hab := by
    rw [hchange, Option.ite_none_left_eq_some, Option.some.injEq] at hab
    rw [hchange, ← hab.2, if_pos (hset w a)]

/-- **Writes that have been done change nothing more.** -/
theorem writeAll_again {f : α → φ} (h : Lasting change f) (hws : (ws.map Prod.fst).Nodup) :
    writeAll change (writeAll change t ws).1 ws = ((writeAll change t ws).1, 0) := by
  refine writeAll_of_kept fun w hw => ?_
  rw [find?_writeAll_of_nodup hws, firstWrite?_eq_some hws hw]
  cases t.find? w.1 with
  | none => rfl
  | some a => exact h.change_settle w.2 a

/-- The number of values of a table that differ in a field from those of another. -/
def differences [DecidableEq φ] (f : α → φ) (t t' : Table κ α) : Nat :=
  (t.keys.filter fun k => (t.find? k).map f ≠ (t'.find? k).map f).length

/-- **What a batch counts are the values whose field differs** afterwards. -/
theorem writeAll_eq_differences [DecidableEq φ] {f : α → φ} (h : Lasting change f)
    (ht : t.keys.Nodup) (hws : (ws.map Prod.fst).Nodup) :
    (writeAll change t ws).2 = t.differences f (writeAll change t ws).1 := by
  -- the keys of the writes with an effect are those under which something differs
  have hperm : ((ws.filter fun w => ((t.find? w.1).bind (change w.2)).isSome).map
      Prod.fst).Perm (t.keys.filter fun k =>
        (t.find? k).map f ≠ ((writeAll change t ws).1.find? k).map f) := by
    refine (List.perm_ext_iff_of_nodup (hws.sublist (List.filter_sublist.map _))
      (ht.filter _)).2 fun k => ?_
    rw [List.mem_map, List.mem_filter, decide_eq_true_eq, find?_writeAll_of_nodup hws]
    constructor
    · rintro ⟨w, hw, rfl⟩
      obtain ⟨hw, heffect⟩ := List.mem_filter.1 hw
      obtain ⟨b, hb⟩ := Option.isSome_iff_exists.1 heffect
      obtain ⟨a, ha, hab⟩ := Option.bind_eq_some_iff.1 hb
      refine ⟨mem_keys_of_find? ha, ?_⟩
      simpa [ha, firstWrite?_eq_some hws hw, settle, hab] using (h.shows hab).symm
    · rintro ⟨hk, hne⟩
      obtain ⟨a, ha⟩ := exists_find? hk
      rw [ha] at hne
      cases hw : firstWrite? ws k with
      | none => simp [hw] at hne
      | some w =>
        cases hab : change w a with
        | none => simp [hw, settle, hab] at hne
        | some b =>
          refine ⟨(k, w), List.mem_filter.2 ⟨mem_entries_of_find? hw, ?_⟩, rfl⟩
          simp [ha, hab]
  rw [count_writeAll hws, differences, ← hperm.length_eq, List.length_map]

end Table

/-! ## The writes of a flush -/

namespace Store

theorem lasting_changeReference :
    Table.Lasting changeReference fun r => (r.target, r.isPrimitive) := by
  have hresolution : Table.Lasting changeReference Reference.resolution :=
    Table.lasting_of_fill changeReference_eq fun w r hr => r.resolution_apply hr w
  refine hresolution.of_eq fun r r' heq => ?_
  obtain ⟨htarget, hmark⟩ := Prod.mk.inj heq
  rw [Reference.resolution, Reference.resolution, htarget, hmark]

theorem lasting_changeArgument : Table.Lasting changeArgument TemplateArgument.reference :=
  Table.lasting_of_fill (fun _ _ => rfl) fun _ _ _ => rfl

theorem lasting_changeBase : Table.Lasting changeBase BaseEdge.target :=
  Table.lasting_of_fill (fun _ _ => rfl) fun _ _ _ => rfl

theorem lasting_changeMember : Table.Lasting changeMember Member.offset :=
  Table.lasting_of_set (fun _ _ => rfl) fun _ _ => rfl

theorem lasting_changeType : Table.Lasting changeType DeclaredType.size :=
  Table.lasting_of_set (fun _ _ => rfl) fun _ _ => rfl

end Store

/-! ## Batches -/

namespace Batch

/-- A batch stages no new reference, and writes each entity at most once. -/
structure Distinct (b : Batch) : Prop where
  references : b.references = []
  resolutions : (b.resolutions.map Prod.fst).Nodup
  links : (b.links.map Prod.fst).Nodup
  bases : (b.bases.map Prod.fst).Nodup
  offsets : (b.offsets.map Prod.fst).Nodup
  sizes : (b.sizes.map Prod.fst).Nodup

/-- The writes of a batch in another order. -/
structure Reorders (b b' : Batch) : Prop where
  references : b'.references = b.references
  resolutions : b'.resolutions.Perm b.resolutions
  links : b'.links.Perm b.links
  bases : b'.bases.Perm b.bases
  offsets : b'.offsets.Perm b.offsets
  sizes : b'.sizes.Perm b.sizes

theorem Distinct.reorder {b b' : Batch} (hb : b.Distinct) (h : b.Reorders b') : b'.Distinct where
  references := h.references.trans hb.references
  resolutions := (h.resolutions.map _).nodup_iff.2 hb.resolutions
  links := (h.links.map _).nodup_iff.2 hb.links
  bases := (h.bases.map _).nodup_iff.2 hb.bases
  offsets := (h.offsets.map _).nodup_iff.2 hb.offsets
  sizes := (h.sizes.map _).nodup_iff.2 hb.sizes

theorem Reorders.symm {b b' : Batch} (h : b.Reorders b') : b'.Reorders b where
  references := h.references.symm
  resolutions := h.resolutions.symm
  links := h.links.symm
  bases := h.bases.symm
  offsets := h.offsets.symm
  sizes := h.sizes.symm

end Batch

namespace Store

variable {s : Store} {b b' : Batch}

/-- The store with a batch in place of what is staged. -/
def withBatch (s : Store) (b : Batch) : Store := { s with staged := b }

theorem admitted_withBatch_of_reorders (hb : b.Reorders b') (h : (s.withBatch b).Admitted) :
    (s.withBatch b').Admitted := by
  have hknows : ∀ {id}, (s.withBatch b).Knows id → (s.withBatch b').Knows id := by
    intro id hid
    rw [Knows, withBatch] at hid ⊢
    rwa [hb.references]
  constructor
  case references => exact fun r hr => h.references r (hb.references ▸ hr)
  case resolutions =>
    intro w hw
    obtain ⟨hid, htype⟩ := h.resolutions w (hb.resolutions.mem_iff.1 hw)
    exact ⟨hknows hid, htype⟩
  case links =>
    intro w hw
    obtain ⟨hid, hreference⟩ := h.links w (hb.links.mem_iff.1 hw)
    exact ⟨hid, hknows hreference⟩
  case bases => exact fun w hw => h.bases w (hb.bases.mem_iff.1 hw)
  case offsets => exact fun w hw => h.offsets w (hb.offsets.mem_iff.1 hw)
  case sizes => exact fun w hw => h.sizes w (hb.sizes.mem_iff.1 hw)

/-- **Whether a batch is accepted does not depend on its order.** -/
theorem admitted_withBatch_iff (hb : b.Reorders b') :
    (s.withBatch b').Admitted ↔ (s.withBatch b).Admitted :=
  ⟨admitted_withBatch_of_reorders hb.symm, admitted_withBatch_of_reorders hb⟩

section Distinct

variable (hb : b.Distinct)

include hb

theorem committed_withBatch : (s.withBatch b).committed = { s with
    staged := {}
    references := (s.references.writeAll changeReference b.resolutions).1
    arguments := (s.arguments.writeAll changeArgument b.links).1
    bases := (s.bases.writeAll changeBase b.bases).1
    members := (s.members.writeAll changeMember b.offsets).1
    types := (s.types.writeAll changeType b.sizes).1 } := by
  rw [committed, apply, withBatch, hb.references]
  rfl

theorem changes_withBatch : (s.withBatch b).changes = {
    referencesResolved := (s.references.writeAll changeReference b.resolutions).2
    argumentsLinked := (s.arguments.writeAll changeArgument b.links).2
    basesResolved := (s.bases.writeAll changeBase b.bases).2
    offsetsWritten := (s.members.writeAll changeMember b.offsets).2
    sizesWritten := (s.types.writeAll changeType b.sizes).2 } := by
  rw [changes, apply, withBatch, hb.references]
  rfl

/-- **What is committed does not depend on the order of a batch.** -/
theorem committed_withBatch_of_reorders (hs : s.Sound) (h : b.Reorders b') :
    (s.withBatch b').committed = (s.withBatch b).committed := by
  rw [committed_withBatch (hb.reorder h), committed_withBatch hb,
    Table.writeAll_perm hs.references_nodup hb.resolutions h.resolutions,
    Table.writeAll_perm hs.arguments_nodup hb.links h.links,
    Table.writeAll_perm hs.bases_nodup hb.bases h.bases,
    Table.writeAll_perm hs.members_nodup hb.offsets h.offsets,
    Table.writeAll_perm hs.types_nodup hb.sizes h.sizes]

/-- A batch that has been committed commits again, and then changes nothing. -/
theorem committed_again : ((s.withBatch b).committed.withBatch b).committed =
    (s.withBatch b).committed ∧ ((s.withBatch b).committed.withBatch b).changes = {} := by
  rw [committed_withBatch hb, committed_withBatch hb, changes_withBatch hb]
  simp only [Table.writeAll_again lasting_changeReference hb.resolutions,
    Table.writeAll_again lasting_changeArgument hb.links,
    Table.writeAll_again lasting_changeBase hb.bases,
    Table.writeAll_again lasting_changeMember hb.offsets,
    Table.writeAll_again lasting_changeType hb.sizes, and_self]

/-- **A batch that has been committed is accepted again.** A reference or a base that it was to
point at a type points at that type now, unless the reference is primitive. -/
theorem Admitted.again (h : (s.withBatch b).Admitted) :
    ((s.withBatch b).committed.withBatch b).Admitted := by
  have htypes : (s.withBatch b).committed.types.keys = s.types.keys := Table.keys_writeAll _ _
  have hmembers : (s.withBatch b).committed.members.keys = s.members.keys :=
    Table.keys_writeAll _ _
  have harguments : (s.withBatch b).committed.arguments.keys = s.arguments.keys :=
    Table.keys_writeAll _ _
  have hcreated : (s.withBatch b).created = s.references := by
    rw [created, withBatch, hb.references]
    rfl
  have hreferences : (s.withBatch b).committed.references.keys = s.references.keys := by
    rw [references_committed, Table.keys_writeAll, hcreated]
  have hknows : ∀ {id}, (s.withBatch b).Knows id →
      ((s.withBatch b).committed.withBatch b).Knows id := by
    rintro id (hid | ⟨r, hr, heq⟩)
    · exact .inl (hreferences ▸ hid)
    · exact .inr ⟨r, hr, heq⟩
  constructor
  case references =>
    intro r hr
    rw [withBatch, hb.references] at hr
    cases hr
  case resolutions =>
    intro w hw
    obtain ⟨hid, htype⟩ := h.resolutions w hw
    refine ⟨hknows hid, fun t ht => ?_⟩
    obtain ⟨hmem, hkept⟩ := htype t ht
    refine ⟨htypes ▸ hmem, fun r' hr' => ?_⟩
    obtain ⟨r, hr⟩ := Table.exists_find? (hreferences ▸ Table.mem_keys_of_find? hr')
    obtain ⟨r'', hr'', hresolution, hchanged⟩ := resolution_committed (hcreated ▸ hr)
    obtain rfl := Option.some.inj (hr''.symm.trans hr')
    rcases hchanged with rfl | ⟨hnone, -⟩
    · exact hkept r'' hr
    · have hfirst := Table.firstWrite?_eq_some hb.resolutions hw
      rw [hnone, Option.none_or] at hresolution
      exact .inr (Reference.resolution_eq_type.1 (hresolution.trans (ht ▸ hfirst)))
  case links =>
    intro w hw
    obtain ⟨hid, hreference⟩ := h.links w hw
    exact ⟨harguments ▸ hid, hknows hreference⟩
  case bases =>
    intro w hw
    obtain ⟨hmem, e, he, htarget⟩ := h.bases w hw
    obtain ⟨e', he', -, htarget'⟩ := target_committed he
    refine ⟨htypes ▸ hmem, e', he', .inr ?_⟩
    have hfirst : Table.firstWrite? b.bases w.1 = some w.2 :=
      Table.firstWrite?_eq_some hb.bases hw
    refine htarget'.trans ?_
    rcases htarget with hnone | hsome
    · rw [hnone, Option.none_or]
      exact hfirst
    · rw [hsome, Option.some_or]
  case offsets => exact fun w hw => hmembers ▸ h.offsets w hw
  case sizes => exact fun w hw => htypes ▸ h.sizes w hw

end Distinct

end Store

/-! ## Writes one by one -/

/-- A write of a field that passes fill in. -/
inductive Write
  | resolution (id : ReferenceId) (found : Resolution)
  | link (id : ArgumentId) (reference : ReferenceId)
  | base (id : BaseId) (target : TypeId)
  | offset (id : MemberId) (offset : UInt32)
  | size (id : TypeId) (size : UInt32)
  deriving DecidableEq, Repr

namespace Write

/-- The entity that is written. Each kind of entity is written in one way. -/
def subject : Write → (e : Entity) × Id e
  | resolution id _ => ⟨.reference, id⟩
  | link id _ => ⟨.argument, id⟩
  | base id _ => ⟨.base, id⟩
  | offset id _ => ⟨.member, id⟩
  | size id _ => ⟨.type, id⟩

/-! The writes of each kind. -/

def resolution? : Write → Option (ReferenceId × Resolution)
  | resolution id found => some (id, found)
  | _ => none

def link? : Write → Option (ArgumentId × ReferenceId)
  | link id reference => some (id, reference)
  | _ => none

def base? : Write → Option (BaseId × TypeId)
  | base id target => some (id, target)
  | _ => none

def offset? : Write → Option (MemberId × UInt32)
  | offset id x => some (id, x)
  | _ => none

def size? : Write → Option (TypeId × UInt32)
  | size id x => some (id, x)
  | _ => none

end Write

/-- The batch of a list of writes. -/
def Batch.ofWrites (ws : List Write) : Batch where
  resolutions := ws.filterMap Write.resolution?
  links := ws.filterMap Write.link?
  bases := ws.filterMap Write.base?
  offsets := ws.filterMap Write.offset?
  sizes := ws.filterMap Write.size?

/-- The keys of one kind of writes are distinct if all subjects are. -/
theorem Write.nodup_filterMap {e : Entity} {ω : Type} {kind? : Write → Option (Id e × ω)}
    (hkind : ∀ w x, kind? w = some x → w.subject = ⟨e, x.1⟩) {ws : List Write}
    (hws : (ws.map Write.subject).Nodup) : ((ws.filterMap kind?).map Prod.fst).Nodup := by
  rw [List.Nodup, List.pairwise_map] at hws ⊢
  refine hws.filterMap kind? fun w w' hne x hx x' hx' heq => hne ?_
  rw [hkind w x hx, hkind w' x' hx', heq]

theorem Batch.distinct_ofWrites {ws : List Write} (hws : (ws.map Write.subject).Nodup) :
    (Batch.ofWrites ws).Distinct where
  references := rfl
  resolutions := Write.nodup_filterMap (by rintro ⟨⟩ x ⟨⟩; rfl) hws
  links := Write.nodup_filterMap (by rintro ⟨⟩ x ⟨⟩; rfl) hws
  bases := Write.nodup_filterMap (by rintro ⟨⟩ x ⟨⟩; rfl) hws
  offsets := Write.nodup_filterMap (by rintro ⟨⟩ x ⟨⟩; rfl) hws
  sizes := Write.nodup_filterMap (by rintro ⟨⟩ x ⟨⟩; rfl) hws

theorem Batch.reorders_ofWrites {ws ws' : List Write} (h : ws'.Perm ws) :
    (Batch.ofWrites ws).Reorders (Batch.ofWrites ws') where
  references := rfl
  resolutions := h.filterMap _
  links := h.filterMap _
  bases := h.filterMap _
  offsets := h.filterMap _
  sizes := h.filterMap _

namespace Store

variable {s : Store}

/-- Stages one write. -/
def stageWrite (s : Store) : Write → Store
  | .resolution id found => s.stageResolutions [(id, found)]
  | .link id reference => s.stageLinks [(id, reference)]
  | .base id target => s.stageBases [(id, target)]
  | .offset id x => s.stageOffsets [(id, x)]
  | .size id x => s.stageSizes [(id, x)]

/-- Stages writes in order. -/
def stageAll (s : Store) (ws : List Write) : Store := ws.foldl stageWrite s

theorem stageAll_eq (s : Store) (ws : List Write) : s.stageAll ws = s.withBatch {
    references := s.staged.references
    resolutions := s.staged.resolutions ++ ws.filterMap Write.resolution?
    links := s.staged.links ++ ws.filterMap Write.link?
    bases := s.staged.bases ++ ws.filterMap Write.base?
    offsets := s.staged.offsets ++ ws.filterMap Write.offset?
    sizes := s.staged.sizes ++ ws.filterMap Write.size? } := by
  induction ws generalizing s with
  | nil => simp [stageAll, withBatch]
  | cons w ws ih =>
    change (s.stageWrite w).stageAll ws = _
    rw [ih]
    cases w <;> simp [stageWrite, stageResolutions, stageLinks, stageBases, stageOffsets,
      stageSizes, withBatch, List.filterMap_cons, Write.resolution?, Write.link?, Write.base?,
      Write.offset?, Write.size?]

/-- What is staged on nothing is the batch of the writes. -/
theorem stageAll_of_staged (hstaged : s.staged = {}) (ws : List Write) :
    s.stageAll ws = s.withBatch (.ofWrites ws) := by
  rw [stageAll_eq, hstaged]
  rfl

/-- **A batch without repeated keys is a set of writes.** Whether it is accepted and what becomes
of the store are the same for every order in which it is staged. The flush counts the entities
whose field it has changed; and staged again, in whatever order, the batch is accepted and changes
nothing. -/
theorem flush_unordered (h : s.Reachable) (hstaged : s.staged = {}) {ws : List Write}
    (hws : (ws.map Write.subject).Nodup) :
    (∀ ws' : List Write, ws'.Perm ws →
      (s.stageAll ws').flush.value.1.isOk = (s.stageAll ws).flush.value.1.isOk ∧
      (s.stageAll ws').flush.value.2 = (s.stageAll ws).flush.value.2) ∧
    ∀ changes s', (s.stageAll ws).flush.value = (.ok changes, s') →
      changes = {
        referencesResolved := s.references.differences (fun r => (r.target, r.isPrimitive))
          s'.references
        referencesCreated := 0
        argumentsLinked := s.arguments.differences TemplateArgument.reference s'.arguments
        basesResolved := s.bases.differences BaseEdge.target s'.bases
        offsetsWritten := s.members.differences Member.offset s'.members
        sizesWritten := s.types.differences DeclaredType.size s'.types } ∧
      ∀ ws' : List Write, ws'.Perm ws → (s'.stageAll ws').flush.value = (.ok {}, s') := by
  have hs := h.sound
  have hb := Batch.distinct_ofWrites hws
  refine ⟨fun ws' hperm => ?_, fun changes s' hflush => ⟨?_, fun ws' hperm => ?_⟩⟩
  · have hreorders := Batch.reorders_ofWrites hperm
    rw [stageAll_of_staged hstaged, stageAll_of_staged hstaged]
    by_cases hadmitted : (s.withBatch (.ofWrites ws)).Admitted
    · rw [value_flush_of_admitted hadmitted,
        value_flush_of_admitted ((admitted_withBatch_iff hreorders).2 hadmitted)]
      exact ⟨rfl, committed_withBatch_of_reorders hb hs hreorders⟩
    · obtain ⟨e, he⟩ := value_flush_of_not_admitted hadmitted
      obtain ⟨e', he'⟩ := value_flush_of_not_admitted
        (mt (admitted_withBatch_iff hreorders).1 hadmitted)
      rw [he, he']
      exact ⟨rfl, rfl⟩
  · rw [stageAll_of_staged hstaged] at hflush
    obtain ⟨hadmitted, rfl⟩ := admitted_of_flush hflush
    rw [value_flush_of_admitted hadmitted] at hflush
    obtain rfl := Except.ok.inj (congrArg Prod.fst hflush)
    rw [changes_withBatch hb, committed_withBatch hb,
      ← Table.writeAll_eq_differences lasting_changeReference hs.references_nodup hb.resolutions,
      ← Table.writeAll_eq_differences lasting_changeArgument hs.arguments_nodup hb.links,
      ← Table.writeAll_eq_differences lasting_changeBase hs.bases_nodup hb.bases,
      ← Table.writeAll_eq_differences lasting_changeMember hs.members_nodup hb.offsets,
      ← Table.writeAll_eq_differences lasting_changeType hs.types_nodup hb.sizes]
  · rw [stageAll_of_staged hstaged] at hflush
    obtain ⟨hadmitted, rfl⟩ := admitted_of_flush hflush
    -- the other order has led to the same store, on which it changes nothing more
    have hreorders := Batch.reorders_ofWrites hperm
    have hb' := hb.reorder hreorders
    rw [← committed_withBatch_of_reorders hb hs hreorders, stageAll_of_staged rfl]
    have hagain := Admitted.again hb' ((admitted_withBatch_iff hreorders).2 hadmitted)
    obtain ⟨hcommitted, hchanges⟩ := committed_again (s := s) hb'
    rw [value_flush_of_admitted hagain, hcommitted, hchanges]

/-- Writes of every kind to an `outline`. -/
def filling : List Write :=
  [.size ⟨3⟩ 16, .resolution ⟨4⟩ (.type ⟨1⟩), .base ⟨6⟩ ⟨2⟩, .offset ⟨5⟩ 8, .link ⟨7⟩ ⟨4⟩,
    .size ⟨1⟩ 4, .resolution ⟨8⟩ .primitive]

theorem flush_unordered_filling : outline.staged = {} ∧ (filling.map Write.subject).Nodup ∧
    ∃ s', (outline.stageAll filling).flush.value = (.ok ⟨2, 0, 1, 1, 1, 2⟩, s') ∧
      (outline.stageAll filling.reverse).flush.value.2 = s' ∧
      outline.types.differences DeclaredType.size s'.types = 2 ∧
      (s'.stageAll filling).flush.value = (.ok {}, s') := by
  have hnodup : (filling.map Write.subject).Nodup := by decide
  have hok : (outline.stageAll filling).flush.value.1 = .ok ⟨2, 0, 1, 1, 1, 2⟩ := by
    decide +kernel
  obtain ⟨horder, hchanges⟩ := flush_unordered reachable_outline rfl hnodup
  have hflush : (outline.stageAll filling).flush.value =
      (.ok ⟨2, 0, 1, 1, 1, 2⟩, (outline.stageAll filling).flush.value.2) := Prod.ext hok rfl
  obtain ⟨hcounts, hagain⟩ := hchanges _ _ hflush
  exact ⟨rfl, hnodup, _, hflush, (horder _ (List.reverse_perm _)).2,
    (congrArg Changes.sizesWritten hcounts).symm, hagain _ (.refl _)⟩

end Store

end DeclGraph
