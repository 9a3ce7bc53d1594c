import DeclGraph.Proofs.Persistence

/-!
# Flushes are all or nothing

A batch is either refused, and then nothing but its writes is gone, or carried out, and then none
of its writes is lost. Applying a batch skips the writes of entities that it does not find, so the
point is that an admitted batch has none: what a write names is in the tables, or is staged in the
same batch and was put there before the write is applied.

* `Store.CarriedOut`: every write of a batch shows in the store after it.
* `Store.Numbered.carriedOut_committed`: committing an admitted batch carries it out.
* `Store.flush_atomic`: **flushes and failing passes**.
-/

namespace DeclGraph

/-- Whether the staged writes still wait after an operation. -/
def Operation.keepsStaged : Operation → Bool
  | .flush | .discard | .resolve _ | .layOut _ => false
  | _ => true

namespace Store

/-- The batch of `s` has been carried out in `s'`, and nothing waits there. -/
structure CarriedOut (s s' : Store) : Prop where
  staged : s'.staged = {}
  references : ∀ r ∈ s.staged.references, ∃ r', s'.references.find? r.id = some r' ∧ r.Kept r'
  resolutions : ∀ w ∈ s.staged.resolutions, ∃ r, s'.references.find? w.1 = some r ∧
    r.needsResolution = false
  bases : ∀ w ∈ s.staged.bases, ∃ b t, s'.bases.find? w.1 = some b ∧ b.target = some t
  links : ∀ w ∈ s.staged.links, ∃ a id, s'.arguments.find? w.1 = some a ∧ a.reference = some id
  offsets : ∀ w ∈ s.staged.offsets, ∃ m x, s'.members.find? w.1 = some m ∧
    m.offset = some x ∧ Table.lastWrite? s.staged.offsets w.1 = some x
  sizes : ∀ w ∈ s.staged.sizes, ∃ n x, s'.types.find? w.1 = some n ∧
    n.size = some x ∧ Table.lastWrite? s.staged.sizes w.1 = some x

variable {s s' : Store}

/-! ## Batches that are carried out -/

/-- **An admitted batch is carried out.** Each write finds what it is about, since the batch is
admitted; what is written once only is written by the first of its writes at the latest. -/
theorem Numbered.carriedOut_committed (h : s.Numbered) (ha : s.Admitted) :
    s.CarriedOut s.committed where
  staged := rfl
  references r hr := by
    obtain ⟨r', hr', -, hwrite⟩ := resolution_committed (h.find?_created.2 (.inr ⟨hr, rfl⟩))
    exact ⟨r', hr', .of_write hwrite⟩
  resolutions w hw := by
    obtain ⟨r, hr⟩ := h.exists_created (ha.resolutions w hw).1
    obtain ⟨r', hr', -, hresolved⟩ := find?_references_committed hr
    refine ⟨r', hr', Bool.eq_false_iff.2 fun hneeds => ?_⟩
    have hsome := hresolved w.2 hw
    rw [r'.needsResolution_iff.1 hneeds] at hsome
    cases hsome
  bases w hw := by
    obtain ⟨-, b, hb, -⟩ := ha.bases w hw
    obtain ⟨b', hb', -, htarget⟩ := target_committed hb
    obtain ⟨t, ht⟩ := Table.exists_or_firstWrite? hw b.target
    exact ⟨b', t, hb', htarget.trans ht⟩
  links w hw := by
    obtain ⟨a, ha⟩ := Table.exists_find? (ha.links w hw).1
    obtain ⟨a', ha', -, hreference⟩ := reference_committed ha
    obtain ⟨id, hid⟩ := Table.exists_or_firstWrite? hw a.reference
    exact ⟨a', id, ha', hreference.trans hid⟩
  offsets w hw := by
    obtain ⟨m, hm⟩ := Table.exists_find? (ha.offsets w hw)
    obtain ⟨m', hm', -, hoffset⟩ := offset_committed hm
    obtain ⟨x, hx⟩ := Table.exists_lastWrite? hw
    exact ⟨m', x, hm', by rw [hoffset, hx, Option.some_or], hx⟩
  sizes w hw := by
    obtain ⟨n, hn⟩ := Table.exists_find? (ha.sizes w hw)
    obtain ⟨n', hn', -, hsize⟩ := size_committed hn
    obtain ⟨x, hx⟩ := Table.exists_lastWrite? hw
    exact ⟨n', x, hn', by rw [hsize, hx, Option.some_or], hx⟩

theorem Numbered.carriedOut_of_flush (h : s.Numbered) {changes : Changes}
    (hflush : s.flush.value = (.ok changes, s')) : s.CarriedOut s' := by
  obtain ⟨ha, rfl⟩ := admitted_of_flush hflush
  exact h.carriedOut_committed ha

/-! ## References that wait -/

/-- What is staged stays so until a flush, a pass or a discard. -/
theorem staged_references_perform {o : Operation} (ho : o.keepsStaged = true) :
    s.staged.references ⊆ (s.perform o).staged.references := by
  have hdeclares : ∀ {s'}, s.Declares s' → s.staged.references ⊆ s'.staged.references := by
    intro s' h
    rw [staged_declares h]
    exact List.Subset.refl _
  cases o with
  | addType d => exact hdeclares (s.declares_addType d)
  | addMember owner d => exact hdeclares (s.declares_addMember owner d)
  | addBase owner typeString => exact hdeclares (s.declares_addBase owner typeString)
  | addArgument owner typeString => exact hdeclares (s.declares_addArgument owner typeString)
  | addTypedef space name target => exact hdeclares (s.declares_addTypedef space name target)
  | stageReference r => exact List.subset_append_left _ _
  | stageResolutions ws => exact List.Subset.refl _
  | stageLinks ws => exact List.Subset.refl _
  | stageBases ws => exact List.Subset.refl _
  | stageOffsets ws => exact List.Subset.refl _
  | stageSizes ws => exact List.Subset.refl _
  | flush => cases ho
  | discard => cases ho
  | resolve sampleLimit => cases ho
  | layOut keepLayouts => cases ho

theorem staged_references_foldl (os : List Operation) (hos : ∀ o ∈ os, o.keepsStaged = true) :
    s.staged.references ⊆ (os.foldl perform s).staged.references := by
  induction os generalizing s with
  | nil => exact List.Subset.refl _
  | cons o os ih =>
    rw [List.forall_mem_cons] at hos
    exact List.Subset.trans (staged_references_perform hos.1) (ih hos.2)

/-! ## Passes that fail -/

/-- A resolution pass fails with its flush. -/
theorem store_runResolution_of_error {sampleLimit : Nat} {e : StoreError}
    (h : (s.runResolution sampleLimit).outcome = .error e) :
    (s.runResolution sampleLimit).store = s.planResolution.store.discard := by
  rw [store_runResolution]
  simp only [runResolution] at h
  split at h
  · next heq =>
    rw [heq]
    exact eq_discard_of_flush heq
  · cases h

/-- A layout pass fails with its flush. -/
theorem store_runLayout_of_error {keepLayouts : Bool} {e : StoreError}
    (h : (s.runLayout keepLayouts).outcome = .error e) :
    (s.runLayout keepLayouts).store = (s.stageLayouts s.layoutItems.1).discard := by
  rw [store_runLayout]
  simp only [runLayout] at h
  split at h
  · next heq =>
    rw [heq]
    exact eq_discard_of_flush heq
  · cases h

/-! ## All or nothing -/

/-- **A flush is all or nothing.** A refused batch is gone and nothing else, an admitted one is
carried out, with every staged reference under the number that staging it returned. A pass that
fails has done nothing either, except that a resolution pass has used up the numbers of the
references that it staged. -/
theorem flush_atomic (h : s.Reachable) :
    (∀ e s', s.flush.value = (.error e, s') → s' = { s with staged := {} }) ∧
    (∀ changes s', s.flush.value = (.ok changes, s') → s.CarriedOut s') ∧
    (∀ r (os : List Operation) changes s', (∀ o ∈ os, o.keepsStaged = true) →
      (os.foldl perform (s.stageReference r).2).flush.value = (.ok changes, s') →
      ∃ r', s'.references.find? (s.stageReference r).1 = some r' ∧
        { r with id := (s.stageReference r).1 }.Kept r') ∧
    (∀ sampleLimit e, (s.runResolution sampleLimit).outcome = .error e → ∃ n, s.nextId ≤ n ∧
      (s.runResolution sampleLimit).store = { s with staged := {}, nextId := n }) ∧
    (∀ keepLayouts e, (s.runLayout keepLayouts).outcome = .error e →
      (s.runLayout keepLayouts).store = { s with staged := {} }) := by
  refine ⟨fun e s' hflush => eq_discard_of_flush hflush,
    fun changes s' hflush => h.sound.carriedOut_of_flush hflush,
    fun r os changes s' hos hflush => ?_, fun sampleLimit e herror => ?_,
    fun keepLayouts e herror => store_runLayout_of_error herror⟩
  · have hstaged : ({ r with id := ⟨s.nextId⟩ } : Reference) ∈
        (os.foldl perform (s.stageReference r).2).staged.references :=
      staged_references_foldl os hos (List.mem_append_right _ (List.mem_singleton_self _))
    have hreachable := (h.perform (.stageReference r)).trans (leads_foldl os _)
    exact (Numbered.carriedOut_of_flush (Reachable.sound hreachable).toNumbered hflush).references
      _ hstaged
  · obtain ⟨b, n, hn, hplan⟩ := s.stages_planResolution
    exact ⟨n, hn, by rw [store_runResolution_of_error herror, hplan]; rfl⟩

/-- Writes to an `outline` in which a new reference is linked and resolved in the batch that stages
it, and a base, an offset and a size are written twice. -/
def rewrites : List Operation :=
  [.stageLinks [(⟨7⟩, ⟨10⟩)], .stageResolutions [(⟨4⟩, .type ⟨1⟩), (⟨10⟩, .primitive)],
    .stageBases [(⟨6⟩, ⟨2⟩), (⟨6⟩, ⟨2⟩)], .stageOffsets [(⟨5⟩, 0), (⟨5⟩, 8)],
    .stageSizes [(⟨3⟩, 4), (⟨3⟩, 16)]]

/-- An `outline` with these writes staged. -/
def rewritten : Store :=
  rewrites.foldl perform (outline.stageReference (.ofTypeString ⟨0⟩ "Foo")).2

/-- The same with a size for a type that does not exist. -/
def overwritten : Store := rewritten.stageSizes [(⟨99⟩, 1)]

theorem reachable_rewritten : rewritten.Reachable :=
  (reachable_outline.perform (.stageReference _)).trans (leads_foldl rewrites _)

theorem flush_atomic_rewritten :
    (∃ changes s', rewritten.flush.value = (.ok changes, s') ∧ rewritten.CarriedOut s' ∧
      ∃ r, s'.references.find? ⟨10⟩ = some r ∧ r.typeString = "Foo") ∧
    overwritten.flush.value = (.error (.unknownType ⟨99⟩), { overwritten with staged := {} }) ∧
    (∃ n, overwritten.nextId ≤ n ∧
      (overwritten.runResolution 25).store = { overwritten with staged := {}, nextId := n }) ∧
    (overwritten.runLayout true).store = { overwritten with staged := {} } := by
  have hreachable : overwritten.Reachable := reachable_rewritten.perform (.stageSizes _)
  refine ⟨?_, ?_, ?_, ?_⟩
  · have hflush : rewritten.flush.value = (.ok ⟨2, 1, 1, 1, 2, 2⟩, rewritten.committed) :=
      Prod.ext (by decide +kernel) (by decide +kernel)
    obtain ⟨r, hr, hkept⟩ := (flush_atomic reachable_outline).2.2.1
      (.ofTypeString ⟨0⟩ "Foo") rewrites _ _ (by decide) hflush
    exact ⟨_, _, hflush, (flush_atomic reachable_rewritten).2.1 _ _ hflush, r, hr,
      congrArg Reference.typeString hkept.declared⟩
  · have hrefused : overwritten.flush.value.1 = .error (.unknownType ⟨99⟩) := by decide +kernel
    exact Prod.ext hrefused ((flush_atomic hreachable).1 _ _ (Prod.ext hrefused rfl))
  · exact (flush_atomic hreachable).2.2.2.1 25 (.unknownType ⟨99⟩) (by decide +kernel)
  · exact (flush_atomic hreachable).2.2.2.2 true (.unknownType ⟨99⟩) (by decide +kernel)

end Store

end DeclGraph
