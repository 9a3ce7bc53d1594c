import DeclGraph.Proofs.Accounting

/-!
# Repeated resolution passes

A pass may resolve what an earlier one could not, because the earlier one has resolved the target
of a typedef. So chains of typedefs can take one pass after the other, but not forever: after the
first pass, which gives all template arguments their references, every pass that writes anything
leaves less unresolved than there was. A pass that writes nothing leaves the store as it is, and
so does every pass after it.

* `Store.openItems`: how much is unresolved.
* `Store.Passed.openItems_resolved_lt`: a pass that writes anything leaves less.
* `Store.idle_of_openItems_lt`: **passes converge**, in one pass more than there are open items.
-/

namespace DeclGraph

/-- Changes that are none at all are zero in every count. -/
theorem Changes.eq_of_isEmpty {changes : Changes} (h : changes.isEmpty = true) : changes = {} := by
  obtain ⟨_, _, _, _, _, _⟩ := changes
  simp only [isEmpty, total, beq_iff_eq, Nat.add_eq_zero_iff] at h
  simp [h]

namespace Store

variable {s : Store}

/-- How many references of members and typedefs, bases and template arguments are unresolved. -/
def openItems (s : Store) : Nat :=
  s.unresolvedReferences.length + s.unresolvedBases.length + s.unresolvedArguments.length

/-- The store after passes with these limits on their samples. -/
def runPasses (s : Store) (ks : List Nat) : Store :=
  ks.foldl (fun s k => (s.runResolution k).store) s

/-- A store as a pass leaves it: nothing is staged, and no unresolved template argument is without
a reference. -/
structure Passed (s : Store) : Prop where
  sound : s.Sound
  staged : s.staged = {}
  linked : ∀ a ∈ s.unresolvedArguments, a.reference ≠ none

/-- A pass has nothing to write. -/
def Idle (s : Store) : Prop := s.planResolution.store.changes.isEmpty = true

/-! ## One pass -/

section Pass

variable (h : s.Sound) (hstaged : s.staged = {})

include h hstaged

theorem passed_resolved : s.resolved.Passed := ⟨h.resolved hstaged, rfl, linked_resolved h hstaged⟩

/-- A reference for which the pass has found something is not left open. -/
theorem leavesOpen_of_found {id : ReferenceId} {r : Reference} {found : Resolution}
    (hr : s.shared.store.created.find? id = some r)
    (hfound : (id, found) ∈ s.foundReferences ++ s.shared.resolutions) :
    s.leavesOpen id = false := by
  rw [← Bool.not_eq_true]
  exact fun hopen => (h.left_open hstaged hr hopen).2.2 found hfound

/-- A pass never leaves more unresolved. -/
theorem openItems_resolved_le : s.resolved.openItems ≤ s.openItems := by
  obtain ⟨done, hdone, ht⟩ := h.exists_tracks hstaged
  rw [openItems, openItems, unresolvedReferences_resolved h hstaged,
    unresolvedBases_resolved h hstaged, unresolvedArguments_resolved h hstaged hdone ht,
    ← hdone, List.length_map, List.length_map]
  exact Nat.add_le_add (Nat.add_le_add (List.length_filter_le ..) (List.length_filter_le ..))
    (List.length_filter_le ..)

end Pass

namespace Passed

variable (h : s.Passed)

include h

/-- **A pass that writes anything leaves less unresolved.** Whatever it writes settles an item that
was open before. -/
theorem openItems_resolved_lt (hbusy : ¬s.Idle) : s.resolved.openItems < s.openItems := by
  obtain ⟨done, hdone, ht⟩ := h.sound.exists_tracks h.staged
  have hreferences := List.length_filter_le (fun u : Unresolved => s.leavesOpen u.reference.id)
    s.unresolvedReferences
  have hbases := List.length_filter_le (fun b => (s.baseTarget? b).isNone) s.unresolvedBases
  have harguments := List.length_filter_le
    (fun p : TemplateArgument × ReferenceId => s.leavesOpen p.2) done
  rw [openItems, openItems, unresolvedReferences_resolved h.sound h.staged,
    unresolvedBases_resolved h.sound h.staged,
    unresolvedArguments_resolved h.sound h.staged hdone ht, ← hdone, List.length_map,
    List.length_map]
  rw [Idle, changes_isEmpty_iff h.sound h.staged h.linked, Classical.not_and_iff_not_or_not,
    Classical.not_and_iff_not_or_not] at hbusy
  rcases hbusy with hfound | hfound | hfound
  · obtain ⟨w, hw⟩ := List.exists_mem_of_ne_nil _ hfound
    have hlt : (s.unresolvedReferences.filter fun u => s.leavesOpen u.reference.id).length <
        s.unresolvedReferences.length := by
      obtain ⟨u, hu, heq⟩ := List.mem_filterMap.1 hw
      obtain ⟨found, -, rfl⟩ := Option.map_eq_some_iff.1 heq
      have hr := h.sound.find?_created_shared h.staged (h.sound.find?_unresolved hu).1
      have hclosed := leavesOpen_of_found h.sound h.staged hr (List.mem_append_left _ hw)
      exact List.length_filter_lt_length_iff_exists.2 ⟨u, hu, by simp [hclosed]⟩
    omega
  · obtain ⟨w, hw⟩ := List.exists_mem_of_ne_nil _ hfound
    have hlt : (done.filter fun p => s.leavesOpen p.2).length < done.length := by
      obtain ⟨houtcome, -⟩ := ht.resolutions w hw
      obtain ⟨p, hp, hpw, r, hr, -⟩ := ht.exists_first (Option.isSome_of_eq_some houtcome)
      have hclosed := leavesOpen_of_found h.sound h.staged hr (List.mem_append_right _ hw)
      refine List.length_filter_lt_length_iff_exists.2 ⟨p, (mem_of_mem_distinctBy hp).1, ?_⟩
      rw [hpw, hclosed]
      exact Bool.false_ne_true
    omega
  · obtain ⟨w, hw⟩ := List.exists_mem_of_ne_nil _ hfound
    have hlt : (s.unresolvedBases.filter fun b => (s.baseTarget? b).isNone).length <
        s.unresolvedBases.length := by
      obtain ⟨b, hb, heq⟩ := List.mem_filterMap.1 hw
      obtain ⟨t, ht, -⟩ := Option.map_eq_some_iff.1 heq
      exact List.length_filter_lt_length_iff_exists.2 ⟨b, hb, by simp [ht]⟩
    omega

/-- A pass that has nothing to write creates nothing and leaves the store as it is. -/
theorem run_of_idle (hidle : s.Idle) (k : Nat) : (s.runResolution k).store = s ∧
    ∃ report, (s.runResolution k).outcome = .ok report ∧ report.referencesCreated = 0 ∧
      report.changes = {} := by
  obtain ⟨hstore, report, hok, hcreated, hchanges⟩ := run_resolved h.sound h.staged k
  refine ⟨hstore.trans (resolved_of_isEmpty h.sound h.staged h.linked hidle), report, hok,
    hcreated.trans (shared_of_linked h.linked).2.2, hchanges.trans ?_⟩
  exact Changes.eq_of_isEmpty hidle

/-- No pass changes a store once one has nothing to write. -/
theorem runPasses_of_idle (hidle : s.Idle) (ks : List Nat) : s.runPasses ks = s := by
  induction ks with
  | nil => rfl
  | cons k ks ih =>
    change (s.runResolution k).store.runPasses ks = s
    rw [(h.run_of_idle hidle k).1, ih]

/-- A store with nothing unresolved gives a pass nothing to write. -/
theorem idle_of_openItems_eq_zero (hopen : s.openItems = 0) : s.Idle := by
  by_contra hbusy
  exact absurd (h.openItems_resolved_lt hbusy) (by omega)

end Passed

/-! ## Many passes -/

/-- As many passes as there are open items leave a further one nothing to write. -/
theorem Passed.idle_runPasses (h : s.Passed) {ks : List Nat} (hks : s.openItems ≤ ks.length) :
    (s.runPasses ks).Passed ∧ (s.runPasses ks).Idle := by
  induction ks generalizing s with
  | nil => exact ⟨h, h.idle_of_openItems_eq_zero (Nat.le_zero.1 hks)⟩
  | cons k ks ih =>
    by_cases hidle : s.Idle
    · rw [h.runPasses_of_idle hidle]
      exact ⟨h, hidle⟩
    · -- the pass leaves less unresolved, and the others are as many as that at least
      have hlt := h.openItems_resolved_lt hidle
      have hle : s.resolved.openItems ≤ ks.length := by
        rw [List.length_cons] at hks
        omega
      change ((s.runResolution k).store.runPasses ks).Passed ∧
        ((s.runResolution k).store.runPasses ks).Idle
      rw [(run_resolved h.sound h.staged k).1]
      exact ih (passed_resolved h.sound h.staged) hle

/-- **Passes converge.** One pass more than there are open items leaves the store so that any
further pass creates no reference, writes nothing and leaves the whole store as it is. -/
theorem idle_of_openItems_lt (h : s.Reachable) (hstaged : s.staged = {}) (ks : List Nat)
    (hks : s.openItems < ks.length) (k : Nat) :
    ((s.runPasses ks).runResolution k).store = s.runPasses ks ∧
      ∃ report, ((s.runPasses ks).runResolution k).outcome = .ok report ∧
        report.referencesCreated = 0 ∧ report.changes = {} := by
  obtain ⟨k₀, ks, rfl⟩ := List.exists_cons_of_ne_nil (List.ne_nil_of_length_pos
    (Nat.lt_of_le_of_lt (Nat.zero_le _) hks))
  -- the first pass links the template arguments, and leaves no more unresolved
  have hfirst := passed_resolved h.sound hstaged
  have hle := openItems_resolved_le h.sound hstaged
  have hrest : s.resolved.openItems ≤ ks.length := by
    rw [List.length_cons] at hks
    omega
  obtain ⟨hpassed, hidle⟩ := hfirst.idle_runPasses hrest
  have hrun : s.runPasses (k₀ :: ks) = s.resolved.runPasses ks := by
    rw [← (run_resolved h.sound hstaged k₀).1]
    rfl
  rw [hrun]
  exact hpassed.run_of_idle hidle k

/-- Two open references: the second pass still resolves one of them, the third is idle. -/
theorem idle_of_openItems_lt_twoTypedefs : twoTypedefs.openItems = 2 ∧
    ∃ report, ((twoTypedefs.runPasses [25, 25, 25]).runResolution 25).outcome = .ok report ∧
      report.changes = {} := by
  have hopen : twoTypedefs.openItems = 2 := by decide +kernel
  obtain ⟨-, report, hok, -, hchanges⟩ := idle_of_openItems_lt reachable_twoTypedefs rfl
    [25, 25, 25] (by rw [hopen]; decide) 25
  exact ⟨hopen, report, hok, hchanges⟩

end Store

end DeclGraph
