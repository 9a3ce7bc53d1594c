import DeclGraph.Proofs.Persistence

/-!
# Writes that contradict each other

A resolution of a reference and the target of a base are written once. A write that contradicts a
target which is committed refuses its batch; any other write that comes too late is dropped, and
the batch is committed without it: after another write of the same batch, on a staged reference
that is resolved already, or on a reference that is marked as primitive.

* `Store.settled?`, `Store.settledBase?`: what a flush settles a reference or a base on.
* `Store.refused_of_conflict`, `Store.refused_of_base_conflict`: the contradictions that refuse a
  batch.
* `Store.lands_iff_settled`: **a write lands exactly if it is the one that is settled on**.
-/

namespace DeclGraph.Store

/-- What a reference is resolved to when the batch is committed: what it is resolved to already,
whether it exists or is staged, or else what the first write of the batch says. -/
def settled? (s : Store) (id : ReferenceId) : Option Resolution :=
  ((s.created.find? id).bind (·.resolution)).or (Table.firstWrite? s.staged.resolutions id)

/-- What a base names when the batch is committed. -/
def settledBase? (s : Store) (id : BaseId) : Option TypeId :=
  ((s.bases.find? id).bind (·.target)).or (Table.firstWrite? s.staged.bases id)

variable {s s' : Store}

/-- A resolution that contradicts the committed target of its reference refuses the batch. -/
theorem refused_of_conflict {id : ReferenceId} {r : Reference} {t t' : TypeId}
    (hw : (id, .type t') ∈ s.staged.resolutions) (hr : s.references.find? id = some r)
    (ht : r.target = some t) (hne : t' ≠ t) : ∃ e, s.flush.value = (.error e, s.discard) := by
  refine value_flush_of_not_admitted fun ha => ?_
  rcases ((ha.resolutions _ hw).2 t' rfl).2 r hr with hnone | hsome
  · cases hnone.symm.trans ht
  · exact hne (Option.some.inj (hsome.symm.trans ht))

/-- A target that contradicts the committed one of its base refuses the batch. -/
theorem refused_of_base_conflict {id : BaseId} {b : BaseEdge} {t t' : TypeId}
    (hw : (id, t') ∈ s.staged.bases) (hb : s.bases.find? id = some b)
    (ht : b.target = some t) (hne : t' ≠ t) : ∃ e, s.flush.value = (.error e, s.discard) := by
  refine value_flush_of_not_admitted fun ha => ?_
  obtain ⟨-, b', hb', htarget⟩ := ha.bases _ hw
  obtain rfl := Option.some.inj (hb.symm.trans hb')
  rcases htarget with hnone | hsome
  · cases hnone.symm.trans ht
  · exact hne (Option.some.inj (hsome.symm.trans ht))

/-- A reference that is written is resolved to what it settles on. -/
theorem Numbered.resolution_settled (h : s.Numbered) (ha : s.Admitted)
    {w : ReferenceId × Resolution} (hw : w ∈ s.staged.resolutions) :
    ∃ r, s.committed.references.find? w.1 = some r ∧ r.resolution = s.settled? w.1 := by
  obtain ⟨r, hr⟩ := h.exists_created (ha.resolutions w hw).1
  obtain ⟨r', hr', hresolution, -⟩ := resolution_committed hr
  exact ⟨r', hr', by rw [hresolution, settled?, hr, Option.bind_some]⟩

/-- A base that is written names what it settles on. -/
theorem Admitted.target_settled (ha : s.Admitted) {w : BaseId × TypeId}
    (hw : w ∈ s.staged.bases) :
    ∃ b, s.committed.bases.find? w.1 = some b ∧ b.target = s.settledBase? w.1 := by
  obtain ⟨-, b, hb, -⟩ := ha.bases w hw
  obtain ⟨b', hb', -, htarget⟩ := target_committed hb
  exact ⟨b', hb', by rw [htarget, settledBase?, hb, Option.bind_some]⟩

/-- **What becomes of the writes that can contradict each other.** One against a committed target
refuses the batch. In a batch that is not refused, a write lands exactly if it says what its
reference or base settles on, and is dropped otherwise. -/
theorem lands_iff_settled (h : s.Reachable) :
    (∀ id r t t', (id, .type t') ∈ s.staged.resolutions → s.references.find? id = some r →
      r.target = some t → t' ≠ t → ∃ e, s.flush.value = (.error e, { s with staged := {} })) ∧
    (∀ id b t t', (id, t') ∈ s.staged.bases → s.bases.find? id = some b →
      b.target = some t → t' ≠ t → ∃ e, s.flush.value = (.error e, { s with staged := {} })) ∧
    ∀ changes s', s.flush.value = (.ok changes, s') →
      (∀ id t, (id, .type t) ∈ s.staged.resolutions → ∃ r, s'.references.find? id = some r ∧
        (r.target = some t ↔ s.settled? id = some (.type t))) ∧
      ∀ id t, (id, t) ∈ s.staged.bases → ∃ b, s'.bases.find? id = some b ∧
        (b.target = some t ↔ s.settledBase? id = some t) := by
  refine ⟨fun id r t t' hw hr ht hne => refused_of_conflict hw hr ht hne,
    fun id b t t' hw hb ht hne => refused_of_base_conflict hw hb ht hne,
    fun changes s' hflush => ?_⟩
  obtain ⟨ha, rfl⟩ := admitted_of_flush hflush
  refine ⟨fun id t hw => ?_, fun id t hw => ?_⟩
  · obtain ⟨r, hr, hresolution⟩ := h.sound.resolution_settled ha hw
    exact ⟨r, hr, by rw [← hresolution, Reference.resolution_eq_type]⟩
  · obtain ⟨b, hb, htarget⟩ := ha.target_settled hw
    exact ⟨b, hb, by rw [htarget]⟩

/-- An `outline` with writes that contradict each other, the target of a staged reference, and a
committed mark as primitive. -/
def contradictory : Store :=
  [.stageResolutions [(⟨8⟩, .primitive)], .flush,
    .stageReference { Reference.ofTypeString ⟨0⟩ "Foo" with target := some ⟨1⟩ },
    .stageResolutions [(⟨4⟩, .type ⟨1⟩), (⟨4⟩, .type ⟨2⟩), (⟨8⟩, .type ⟨1⟩), (⟨10⟩, .type ⟨2⟩)],
    .stageBases [(⟨6⟩, ⟨1⟩), (⟨6⟩, ⟨2⟩)]].foldl perform outline

theorem reachable_contradictory : contradictory.Reachable :=
  reachable_outline.trans (leads_foldl _ _)

/-- The first writes land. Once they are committed, another target for either is refused. -/
theorem lands_iff_settled_contradictory :
    (∃ s', contradictory.flush.value = (.ok ⟨1, 1, 0, 1, 0, 0⟩, s') ∧
      (∃ r, s'.references.find? ⟨4⟩ = some r ∧ r.target = some ⟨1⟩) ∧
      (∃ b, s'.bases.find? ⟨6⟩ = some b ∧ b.target = some ⟨1⟩)) ∧
    (∃ e, (contradictory.committed.stageResolutions [(⟨4⟩, .type ⟨2⟩)]).flush.value.1 =
      .error e) ∧
    ∃ e, (contradictory.committed.stageBases [(⟨6⟩, ⟨2⟩)]).flush.value.1 = .error e := by
  have hflush : contradictory.flush.value = (.ok ⟨1, 1, 0, 1, 0, 0⟩, contradictory.committed) :=
    Prod.ext (by decide +kernel) (by decide +kernel)
  have hcommitted : contradictory.perform .flush = contradictory.committed :=
    congrArg Prod.snd hflush
  have hreachable : contradictory.committed.Reachable :=
    hcommitted ▸ reachable_contradictory.perform .flush
  refine ⟨⟨contradictory.committed, hflush, ?_⟩, ?_, ?_⟩
  · obtain ⟨hreferences, hbases⟩ :=
      (lands_iff_settled reachable_contradictory).2.2 _ _ hflush
    obtain ⟨r, hr, hlands⟩ := hreferences ⟨4⟩ ⟨1⟩ (by decide +kernel)
    obtain ⟨b, hb, hnamed⟩ := hbases ⟨6⟩ ⟨1⟩ (by decide +kernel)
    exact ⟨⟨r, hr, hlands.2 (by decide +kernel)⟩, b, hb, hnamed.2 (by decide +kernel)⟩
  · have hagain := hreachable.perform (.stageResolutions [(⟨4⟩, .type ⟨2⟩)])
    obtain ⟨e, he⟩ := (lands_iff_settled hagain).1 ⟨4⟩
      { Reference.ofTypeString ⟨4⟩ "Foo" with target := some ⟨1⟩ } ⟨1⟩ ⟨2⟩ (by decide +kernel)
      (by decide +kernel) rfl (by decide)
    exact ⟨e, congrArg Prod.fst he⟩
  · have hagain := hreachable.perform (.stageBases [(⟨6⟩, ⟨2⟩)])
    obtain ⟨e, he⟩ := (lands_iff_settled hagain).2.1 ⟨6⟩
      ⟨⟨6⟩, ⟨3⟩, 0, some ⟨1⟩, "Bar"⟩ ⟨1⟩ ⟨2⟩ (by decide +kernel) (by decide +kernel) rfl (by decide)
    exact ⟨e, congrArg Prod.fst he⟩

/-- **Contradictions within a batch do not refuse it.** Nor do those with a mark as primitive: the
writes are dropped. -/
theorem contradictory_writes_dropped : contradictory.Reachable ∧
    (⟨4⟩, .type ⟨2⟩) ∈ contradictory.staged.resolutions ∧
    (⟨8⟩, .type ⟨1⟩) ∈ contradictory.staged.resolutions ∧
    (⟨10⟩, .type ⟨2⟩) ∈ contradictory.staged.resolutions ∧
    (⟨6⟩, ⟨2⟩) ∈ contradictory.staged.bases ∧
    ∃ changes s', contradictory.flush.value = (.ok changes, s') ∧
      (s'.references.find? ⟨4⟩).bind (·.target) = some ⟨1⟩ ∧
      (s'.references.find? ⟨8⟩).bind (·.target) = none ∧
      (s'.references.find? ⟨10⟩).bind (·.target) = some ⟨1⟩ ∧
      (s'.bases.find? ⟨6⟩).bind (·.target) = some ⟨1⟩ := by
  refine ⟨reachable_contradictory, ?_, ?_, ?_, ?_, ⟨1, 1, 0, 1, 0, 0⟩, contradictory.committed,
    Prod.ext ?_ ?_, ?_, ?_, ?_, ?_⟩ <;> decide +kernel

end DeclGraph.Store
