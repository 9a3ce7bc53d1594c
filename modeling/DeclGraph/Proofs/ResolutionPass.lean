import DeclGraph.Proofs.Reachable
import DeclGraph.Proofs.Sharing

/-!
# What a resolution pass commits

A pass over a store on which nothing is staged finds something for some of what is unresolved, and
its flush commits all of it.

* `Store.store_planResolution`: what the pass stages.
* `Store.Sound.admitted_planResolution`: none of it is refused.
* `Store.run_resolved`: so the pass succeeds, and leaves `Store.resolved`.
* `Store.resolved_eq`, `Store.Sound.find?_resolved`: what that store is.
* `Store.Sound.further_resolved`: the store after the pass has been resolved further.
-/

namespace DeclGraph

namespace Store

variable (s : Store)

/-- What is found for the references of members and typedefs. -/
def foundReferences : List (ReferenceId × Resolution) :=
  s.unresolvedReferences.filterMap fun u =>
    (s.resolution? u.reference.typeString u.scope).map (u.reference.id, ·)

/-- The type that a base is found to name, unless it is the one that declares the base. -/
def baseTarget? (b : BaseEdge) : Option TypeId :=
  match s.resolution? b.typeString (s.ownerScope b.owner).1 with
  | some (.type t) => if t = b.owner then none else some t
  | _ => none

/-- What is found for the bases. -/
def foundBases : List (BaseId × TypeId) :=
  s.unresolvedBases.filterMap fun b => (s.baseTarget? b).map (b.id, ·)

/-- How the template arguments share references. -/
def shared : Sharing := (Sharing.run { store := s } s.unresolvedArguments).1

/-- The template arguments with the references that they get. -/
def assigned : List (TemplateArgument × ReferenceId) :=
  Sharing.assign { store := s } s.unresolvedArguments

/-- The store after the pass. -/
def resolved : Store := s.planResolution.store.committed

variable {s}

theorem baseTarget?_eq_some {b : BaseEdge} {t : TypeId} : s.baseTarget? b = some t ↔
    s.resolution? b.typeString (s.ownerScope b.owner).1 = some (.type t) ∧ t ≠ b.owner := by
  rw [baseTarget?]
  rcases s.resolution? b.typeString (s.ownerScope b.owner).1 with _ | t' | _
  · simp
  · simp only [Option.ite_none_left_eq_some, Option.some.injEq, Resolution.type.injEq]
    constructor
    · rintro ⟨hne, rfl⟩
      exact ⟨rfl, hne⟩
    · rintro ⟨rfl, hne⟩
      exact ⟨hne, rfl⟩
  · simp

/-! ## What is unresolved -/

/-- The references of members, then of typedefs. -/
def declaredReferences (s : Store) : List Unresolved :=
  s.members.values.filterMap s.memberReference? ++ s.typedefs.values.filterMap s.typedefReference?

/-- A reference at the place of a member. -/
def memberPlace (s : Store) (m : Member) (r : Reference) : Unresolved :=
  let scope := ((s.types.find? m.owner).map (·.qualifiedName)).getD ""
  ⟨r, .member m.owner m.id m.name, scope, scope ++ "::" ++ m.name⟩

/-- A reference at the place of a typedef. -/
def typedefPlace (t : Typedef) (r : Reference) : Unresolved :=
  ⟨r, .typedef t.id, t.space, t.qualifiedName⟩

theorem memberReference?_eq (m : Member) : s.memberReference? m =
    (m.reference.bind s.references.find?).map (s.memberPlace m) := by
  rw [memberReference?]
  cases m.reference.bind s.references.find? <;> rfl

theorem typedefReference?_eq (t : Typedef) : s.typedefReference? t =
    (s.references.find? t.target).map (typedefPlace t) := by
  rw [typedefReference?]
  cases s.references.find? t.target <;> rfl

section Unresolved

variable (h : s.Sound)

include h

theorem Sound.find?_declared {u : Unresolved} (hu : u ∈ s.declaredReferences) :
    s.references.find? u.reference.id = some u.reference := by
  have hfind : ∃ id, s.references.find? id = some u.reference := by
    rcases List.mem_append.1 hu with hu | hu
    · obtain ⟨m, -, hm⟩ := List.mem_filterMap.1 hu
      obtain ⟨r, hr, rfl⟩ := Option.map_eq_some_iff.1 (memberReference?_eq m ▸ hm)
      obtain ⟨id, -, hid⟩ := Option.bind_eq_some_iff.1 hr
      exact ⟨id, hid⟩
    · obtain ⟨t, -, ht⟩ := List.mem_filterMap.1 hu
      obtain ⟨r, hr, rfl⟩ := Option.map_eq_some_iff.1 (typedefReference?_eq t ▸ ht)
      exact ⟨t.target, hr⟩
  obtain ⟨id, hid⟩ := hfind
  rw [h.referenceId _ (Table.mem_entries_of_find? hid), hid]

theorem Sound.find?_unresolved {u : Unresolved} (hu : u ∈ s.unresolvedReferences) :
    s.references.find? u.reference.id = some u.reference ∧ u.reference.resolution = none := by
  obtain ⟨hmem, hneeds⟩ := List.mem_filter.1 (mem_of_mem_distinctBy hu).1
  exact ⟨h.find?_declared hmem, u.reference.needsResolution_iff.1 hneeds⟩

theorem Sound.find?_unresolvedBase {b : BaseEdge} (hb : b ∈ s.unresolvedBases) :
    s.bases.find? b.id = some b ∧ b.target = none := by
  obtain ⟨hmem, hnone⟩ := List.mem_filter.1 hb
  exact ⟨Table.find?_of_mem_values h.bases_nodup h.baseId hmem, Option.isNone_iff_eq_none.1 hnone⟩

theorem Sound.find?_unresolvedArgument {a : TemplateArgument} (ha : a ∈ s.unresolvedArguments) :
    s.arguments.find? a.id = some a ∧ ∀ id, a.reference = some id →
      ∃ r, s.references.find? id = some r ∧ r.resolution = none := by
  obtain ⟨hmem, hneeds⟩ := List.mem_filter.1 ha
  have hfind := Table.find?_of_mem_values h.arguments_nodup h.argumentId hmem
  refine ⟨hfind, fun id hid => ?_⟩
  obtain ⟨r, hr⟩ :=
    Table.exists_find? (h.argumentReference _ (Table.mem_entries_of_find? hfind) id hid)
  simp only [hid, hr, Option.map_some, Option.getD_some] at hneeds
  exact ⟨r, hr, r.needsResolution_iff.1 hneeds⟩

/-- What the pass over the template arguments comes to. -/
theorem Sound.tracks_shared (hstaged : s.staged = {}) :
    Sharing.Tracks s s.shared s.assigned := by
  have ht := Sharing.tracks_run h s.unresolvedArguments
    (fun a ha => (h.find?_unresolvedArgument ha).2) (Sharing.tracks_start h hstaged)
  rwa [List.nil_append] at ht

theorem Sound.exists_tracks (hstaged : s.staged = {}) : ∃ done,
    done.map Prod.fst = s.unresolvedArguments ∧ Sharing.Tracks s s.shared done :=
  ⟨s.assigned, Sharing.map_fst_assign _ _, h.tracks_shared hstaged⟩

end Unresolved

/-! ## What is staged -/

theorem store_planResolution (h : s.Sound) (hstaged : s.staged = {}) :
    s.planResolution.store = { s with
      nextId := s.shared.store.nextId
      staged := {
        references := s.shared.store.staged.references
        resolutions := s.foundReferences ++ s.shared.resolutions
        links := s.shared.links
        bases := s.foundBases } } := by
  obtain ⟨done, -, ht⟩ := h.exists_tracks hstaged
  have hreferences : (s.unresolvedReferences.map fun u =>
      (u.reference.id, s.resolveReference u)).filterMap (fun e => e.2.outcome.map (e.1, ·)) =
        s.foundReferences := by
    rw [List.filterMap_map]
    refine List.filterMap_congr fun u _ => ?_
    simp only [Function.comp_apply, resolveReference, value_resolveNoting]
  have hbases : ((s.unresolvedBases.map fun b => (b.id, s.resolveBase b)).filterMap fun e =>
      match e.2.outcome with
      | some (.type t) => some (e.1, t)
      | _ => none) = s.foundBases := by
    rw [List.filterMap_map]
    refine List.filterMap_congr fun b _ => ?_
    simp only [Function.comp_apply, resolveBase, value_resolveNoting, baseTarget?]
    rcases s.resolution? b.typeString (s.ownerScope b.owner).1 with _ | t | _
    · rfl
    · by_cases heq : t = b.owner <;> simp [heq]
    · rfl
  -- the rest of the store is as it was, since nothing but references has been staged
  have hplan : s.planResolution.store = ((s.shared.store.stageResolutions
      (s.foundReferences ++ s.shared.resolutions)).stageBases s.foundBases).stageLinks
        s.shared.links := by
    rw [← hreferences, ← hbases]
    rfl
  rw [hplan, stageLinks, stageBases, stageResolutions]
  simp only
  rw [ht.store, hstaged]
  rfl

section Pass

variable (h : s.Sound) (hstaged : s.staged = {})

include h hstaged

/-- What the pass stages for references concerns references that need it, and types that exist. -/
theorem Sound.mem_staged_resolutions {w : ReferenceId × Resolution}
    (hw : w ∈ s.foundReferences ++ s.shared.resolutions) :
    (∀ t, w.2 = .type t → t ∈ s.types.keys) ∧
      ∃ r, s.references.find? w.1 = some r ∧ r.resolution = none := by
  obtain ⟨done, -, ht⟩ := h.exists_tracks hstaged
  rcases List.mem_append.1 hw with hw | hw
  · obtain ⟨u, hu, heq⟩ := List.mem_filterMap.1 hw
    obtain ⟨found, hfound, rfl⟩ := Option.map_eq_some_iff.1 heq
    refine ⟨fun t htype => ?_, u.reference, h.find?_unresolved hu⟩
    obtain rfl := htype
    exact h.mem_types_of_resolution? hfound
  · obtain ⟨hout, hr⟩ := ht.resolutions w hw
    refine ⟨fun t htype => ?_, hr⟩
    -- the outcome is what the string of the reference means where it was first met
    obtain ⟨p, -, -, r, -, hfirst⟩ := ht.exists_first (Option.isSome_of_eq_some hout)
    rw [hout, Option.some.injEq, htype] at hfirst
    exact h.mem_types_of_resolution? hfirst.symm

/-- **The flush refuses nothing that the pass stages.** -/
theorem Sound.admitted_planResolution : s.planResolution.store.Admitted := by
  obtain ⟨done, hdone, ht⟩ := h.exists_tracks hstaged
  -- links may name references that the pass itself has staged
  have hcreated : ∀ id, (∃ r, s.shared.store.created.find? id = some r) →
      s.planResolution.store.Knows id := by
    rintro id ⟨r, hr⟩
    rw [store_planResolution h hstaged]
    rcases ht.sound.find?_created.1 hr with hr | ⟨hr, hid⟩
    · rw [ht.store] at hr
      exact .inl (Table.mem_keys_of_find? hr)
    · exact .inr ⟨r, hr, hid⟩
  rw [store_planResolution h hstaged] at hcreated ⊢
  exact {
    references := ht.targets
    resolutions := by
      intro w hw
      obtain ⟨htypes, r, hr, hnone⟩ := h.mem_staged_resolutions hstaged hw
      refine ⟨.inl (Table.mem_keys_of_find? hr), fun t ht => ⟨htypes t ht, fun r' hr' => .inl ?_⟩⟩
      obtain rfl := Option.some.inj (hr.symm.trans hr')
      rw [← Reference.needsResolution_iff, Reference.needsResolution, Bool.and_eq_true] at hnone
      exact Option.isNone_iff_eq_none.1 hnone.1
    links := by
      intro w hw
      obtain ⟨p, hp, -, rfl⟩ := ht.links w hw
      have hmem : p.1 ∈ s.unresolvedArguments := hdone ▸ List.mem_map_of_mem hp
      refine ⟨Table.mem_keys_of_find? (h.find?_unresolvedArgument hmem).1, hcreated _ ?_⟩
      obtain ⟨-, -, -, r, hr, -⟩ := ht.exists_first ((ht.outcomes _).2 (List.mem_map_of_mem hp))
      exact ⟨r, hr⟩
    bases := by
      intro w hw
      obtain ⟨b, hb, heq⟩ := List.mem_filterMap.1 hw
      obtain ⟨t, ht, rfl⟩ := Option.map_eq_some_iff.1 heq
      obtain ⟨hfind, hnone⟩ := h.find?_unresolvedBase hb
      exact ⟨h.mem_types_of_resolution? (baseTarget?_eq_some.1 ht).1, b, hfind, .inl hnone⟩
    offsets := by simp
    sizes := by simp }

omit h hstaged in
theorem referencesCreated_ofItems (k created : Nat) (items : List ResolvedItem) :
    (ResolutionReport.ofItems k created items).referencesCreated = created := by
  have hrecord : ∀ (r : ResolutionReport) site outcome typeString parent,
      (r.record site outcome typeString parent).referencesCreated = r.referencesCreated := by
    intro r site outcome typeString parent
    rw [ResolutionReport.record]
    cases site <;> split <;> rfl
  rw [ResolutionReport.ofItems]
  generalize hstart : ({ sampleLimit := k, referencesCreated := created } : ResolutionReport) = r
  have hr : r.referencesCreated = created := by rw [← hstart]
  clear hstart
  induction items generalizing r with
  | nil => exact hr
  | cons item items ih => exact ih _ ((hrecord _ _ _ _ _).trans hr)

/-- **A pass over a store on which nothing is staged succeeds**, and reports what it dealt with. -/
theorem outcome_runResolution (k : Nat) : (s.runResolution k).outcome =
    .ok { ResolutionReport.ofItems k s.shared.created s.planResolution.items with
      changes := s.planResolution.store.changes } := by
  have hflush := value_flush_of_admitted (h.admitted_planResolution hstaged)
  rw [runResolution]
  simp only [hflush]
  rfl

/-- The pass commits what it has staged. -/
theorem run_resolved (k : Nat) : (s.runResolution k).store = s.resolved ∧
    ∃ report, (s.runResolution k).outcome = .ok report ∧
      report.referencesCreated = s.shared.created ∧
      report.changes = s.planResolution.store.changes := by
  have hflush := value_flush_of_admitted (h.admitted_planResolution hstaged)
  refine ⟨by rw [store_runResolution, hflush, resolved], ?_⟩
  exact ⟨_, outcome_runResolution h hstaged k, referencesCreated_ofItems _ _ _, rfl⟩

/-! ## The store after the pass -/

theorem Sound.resolved : s.resolved.Sound :=
  h.planResolution.committed (h.admitted_planResolution hstaged)

/-- The pass changes references, bases and template arguments only. -/
theorem resolved_eq : s.resolved = { s with
    nextId := s.shared.store.nextId
    references := (s.shared.store.created.writeAll changeReference
      (s.foundReferences ++ s.shared.resolutions)).1
    arguments := (s.arguments.writeAll changeArgument s.shared.links).1
    bases := (s.bases.writeAll changeBase s.foundBases).1 } := by
  obtain ⟨done, -, ht⟩ := h.exists_tracks hstaged
  have hcreated : s.shared.store.created =
      s.shared.store.staged.references.foldl (fun t r => t.insert r.id r) s.references := by
    rw [created]
    congr 1
    rw [ht.store]
  rw [Store.resolved, store_planResolution h hstaged, hcreated, hstaged]
  rfl

theorem created_planResolution : s.planResolution.store.created = s.shared.store.created := by
  obtain ⟨done, -, ht⟩ := h.exists_tracks hstaged
  rw [store_planResolution h hstaged, created, created]
  congr 1
  rw [ht.store]

/-- The pass resolves a reference if it has found something for it, and keeps it otherwise. -/
theorem Sound.find?_resolved {id : ReferenceId} {r : Reference}
    (hr : s.shared.store.created.find? id = some r) :
    ∃ r', s.resolved.references.find? id = some r' ∧
      (r' = r ∨ r.resolution = none ∧ ∃ w, r' = r.apply w) ∧
        ∀ w, (id, w) ∈ s.foundReferences ++ s.shared.resolutions → r'.resolution.isSome = true := by
  rw [← created_planResolution h hstaged] at hr
  have hcommitted := find?_references_committed hr
  rw [store_planResolution h hstaged] at hcommitted
  rw [Store.resolved, store_planResolution h hstaged]
  exact hcommitted

theorem Sound.find?_created_shared {id : ReferenceId} {r : Reference}
    (hr : s.references.find? id = some r) : s.shared.store.created.find? id = some r := by
  obtain ⟨done, -, ht⟩ := h.exists_tracks hstaged
  rw [ht.sound.find?_created, ht.store]
  exact .inl hr

/-- What the pass finds for a member or a typedef is committed. -/
theorem Sound.find?_resolved_of_found {u : Unresolved} (hu : u ∈ s.unresolvedReferences)
    {found : Resolution} (hfound : s.resolution? u.reference.typeString u.scope = some found) :
    s.resolved.references.find? u.reference.id = some (u.reference.apply found) := by
  obtain ⟨hfind, hnone⟩ := h.find?_unresolved hu
  have hkeys : (⟨s.foundReferences⟩ : Table ReferenceId Resolution).keys.Nodup := by
    refine List.pairwise_map.2
      ((pairwise_distinctBy _ []).filterMap _ fun u u' hne w hw w' hw' => ?_)
    obtain ⟨_, -, rfl⟩ := Option.map_eq_some_iff.1 hw
    obtain ⟨_, -, rfl⟩ := Option.map_eq_some_iff.1 hw'
    exact hne
  have hfirst : Table.find? ⟨s.foundReferences ++ s.shared.resolutions⟩ u.reference.id =
      some found := by
    have hmem : (u.reference.id, found) ∈ s.foundReferences :=
      List.mem_filterMap.2 ⟨u, hu, by rw [hfound, Option.map_some]⟩
    rw [Table.find?, List.find?_append, Option.map_or]
    exact Option.or_eq_some_iff.2 (.inl (Table.find?_of_mem_entries hkeys hmem))
  rw [resolved_eq h hstaged]
  exact Table.find?_writeAll_of_find? hfirst
    (h.find?_created_shared hstaged hfind) (if_pos (u.reference.needsResolution_iff.2 hnone))
    (changeReference_apply _ _)

/-- **The pass resolves typedefs further**, and changes nothing else that decides what type strings
mean. -/
theorem Sound.further_resolved : s.Further s.resolved where
  types := by rw [resolved_eq h hstaged]
  byName := by rw [resolved_eq h hstaged]
  byBaseName := by rw [resolved_eq h hstaged]
  typedefIndex := by rw [resolved_eq h hstaged]
  target name t ht := by
    have hmem := Table.mem_entries_of_find? ht
    rw [h.typedefIndex] at hmem
    obtain ⟨e, he, heq⟩ := List.mem_map.1 hmem
    obtain ⟨-, rfl⟩ := Prod.mk.inj heq
    obtain ⟨r, hr⟩ := Table.exists_find? (h.typedefTarget e he)
    obtain ⟨r', hr', hkept | ⟨hnone, w, rfl⟩, -⟩ :=
      h.find?_resolved hstaged (h.find?_created_shared hstaged hr)
    · exact .inl (by rw [hr', hr, hkept])
    · exact .inr ⟨e.2, r, _, ht, hr, hnone, hr', r.isSome_resolution_apply w⟩

end Pass

end Store

end DeclGraph
