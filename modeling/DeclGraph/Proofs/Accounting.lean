import DeclGraph.Proofs.Assigned
import DeclGraph.Proofs.Import

/-!
# What the report of a resolution pass says

The report counts outcomes of type strings, while the pass writes into references, bases and
template arguments. The two agree wherever template arguments have references of their own, which
holds of all stores that ingesting or importing leads to, and that passes leave.

* `ResolutionReport.counts_ofVerdicts`, `ResolutionReport.samples_ofVerdicts`: what the report
  makes of the outcomes.
* `Store.map_items`: the outcomes of a pass, `Store.listed_resolved`: those that leave something
  unresolved.
* `Store.Processed`: the stores that the pass meets. `Store.Processed.separate`: **in all of them
  template arguments have references of their own.**
* `Store.report_accounts`: **the report accounts for every type string and for every change.**
-/

namespace DeclGraph

/-! ## The report on a list of outcomes -/

/-- A type string with its outcome. -/
abbrev Verdict := Sample × Option Resolution

/-- What a report keeps of an item if nothing was found for it. -/
def ResolvedItem.sample (i : ResolvedItem) : Sample := ⟨i.typeString, i.site, i.parent⟩

namespace ResolutionReport

/-- The report with outcomes recorded in order. -/
def recordAll (r : ResolutionReport) (vs : List Verdict) : ResolutionReport :=
  vs.foldl (fun r v => r.record v.1.site v.2 v.1.typeString v.1.parent) r

theorem ofItems_eq (k created : Nat) (items : List ResolvedItem) : ofItems k created items =
    recordAll { sampleLimit := k, referencesCreated := created }
      (items.map fun i => (i.sample, i.outcome)) := by
  rw [ofItems, recordAll, List.foldl_map]
  rfl

theorem counts_changes (r : ResolutionReport) (changes : Changes) (site : Site) :
    ({ r with changes := changes } : ResolutionReport).counts site = r.counts site := by
  cases site <;> rfl

theorem counts_record (r : ResolutionReport) (v : Verdict) (site : Site) :
    (r.record v.1.site v.2 v.1.typeString v.1.parent).counts site =
      if v.1.site = site then (r.counts site).count v.2 else r.counts site := by
  have hset : (r.setCounts ((r.counts v.1.site).count v.2) v.1.site).counts site =
      if v.1.site = site then (r.counts site).count v.2 else r.counts site := by
    rw [counts_setCounts]
    by_cases hsite : site = v.1.site
    · rw [if_pos hsite, if_pos hsite.symm, hsite]
    · rw [if_neg hsite, if_neg (Ne.symm hsite)]
  rw [record, ← hset]
  -- keeping a sample leaves the counts as they are
  cases site <;> split <;> rfl

/-- The counts of a site are those of the outcomes at that site. -/
theorem counts_ofVerdicts (vs : List Verdict) (r : ResolutionReport) (site : Site) :
    (r.recordAll vs).counts site =
      ((vs.filter (·.1.site = site)).map Prod.snd).foldl Tally.count (r.counts site) := by
  induction vs generalizing r with
  | nil => rfl
  | cons v vs ih =>
    rw [recordAll, List.foldl_cons, ← recordAll, ih, counts_record, List.filter_cons]
    by_cases hsite : v.1.site = site
    · rw [if_pos hsite, if_pos (decide_eq_true hsite), List.map_cons, List.foldl_cons]
    · rw [if_neg hsite, if_neg (by simpa using hsite)]

theorem sampleLimit_record (r : ResolutionReport) (v : Verdict) :
    (r.record v.1.site v.2 v.1.typeString v.1.parent).sampleLimit = r.sampleLimit := by
  rw [record]
  cases v.1.site <;> split <;> rfl

theorem samples_record (r : ResolutionReport) (v : Verdict) :
    (r.record v.1.site v.2 v.1.typeString v.1.parent).samples =
      if v.2.isNone && r.samples.length < r.sampleLimit then r.samples ++ [v.1] else r.samples := by
  have hset : ∀ c site, (r.setCounts c site).samples = r.samples ∧
      (r.setCounts c site).sampleLimit = r.sampleLimit := by
    intro c site
    cases site <;> exact ⟨rfl, rfl⟩
  rw [record]
  simp only [hset]
  split
  · rfl
  · exact (hset _ _).1

/-- The samples are the first of the type strings that nothing was found for. -/
theorem samples_ofVerdicts (vs : List Verdict) {r : ResolutionReport} {before : List Sample}
    (hr : r.samples = before.take r.sampleLimit) : (r.recordAll vs).samples =
      (before ++ (vs.filter (·.2.isNone)).map Prod.fst).take r.sampleLimit := by
  induction vs generalizing r before with
  | nil => simpa [recordAll] using hr
  | cons v vs ih =>
    rw [recordAll, List.foldl_cons, ← recordAll]
    have hlimit := sampleLimit_record r v
    have hlength : r.samples.length = min r.sampleLimit before.length := by
      rw [hr, List.length_take]
    cases hv : v.2.isNone with
    | false =>
      have hkept : (r.record v.1.site v.2 v.1.typeString v.1.parent).samples =
          before.take (r.record v.1.site v.2 v.1.typeString v.1.parent).sampleLimit := by
        rw [samples_record, hv, hlimit, hr]
        rfl
      rw [ih hkept, hlimit, List.filter_cons, if_neg (by simp [hv])]
    | true =>
      have hadded : (r.record v.1.site v.2 v.1.typeString v.1.parent).samples =
          (before ++ [v.1]).take
            (r.record v.1.site v.2 v.1.typeString v.1.parent).sampleLimit := by
        rw [samples_record, hv, hlimit, Bool.true_and, hlength]
        by_cases hroom : before.length < r.sampleLimit
        · rw [if_pos (by simp; omega), hr, List.take_of_length_le (by omega),
            List.take_of_length_le (by simp; omega)]
        · rw [if_neg (by simp; omega), hr, List.take_append_of_le_length (by omega)]
      rw [ih hadded, hlimit, List.filter_cons, if_pos hv, List.map_cons, List.append_assoc]
      rfl

end ResolutionReport

namespace Tally

variable (os : List (Option Resolution)) (c : Tally)

theorem total_foldl : (os.foldl count c).total = c.total + os.length := by
  induction os generalizing c with
  | nil => rfl
  | cons o os ih =>
    have hcount : (c.count o).total = c.total + 1 := by
      rcases o with _ | _ | _ <;> simp only [count, total] <;> omega
    rw [List.foldl_cons, ih, hcount, List.length_cons]
    omega

theorem unresolved_foldl :
    (os.foldl count c).unresolved = c.unresolved + (os.filter (·.isNone)).length := by
  induction os generalizing c with
  | nil => rfl
  | cons o os ih =>
    rw [List.foldl_cons, ih]
    rcases o with _ | _ | _
    · simp only [count, List.filter_cons, Option.isNone_none, if_true, List.length_cons]
      omega
    · rfl
    · rfl

/-- What has been resolved to a type. -/
theorem resolved_foldl : (os.foldl count c).resolved =
    c.resolved + (os.filter fun o => o.any fun w => w != .primitive).length := by
  induction os generalizing c with
  | nil => rfl
  | cons o os ih =>
    rw [List.foldl_cons, ih]
    rcases o with _ | ⟨t⟩ | _
    · rfl
    · have htype : (Resolution.type t != .primitive) = true := by simp
      simp only [count, List.filter_cons, Option.any_some, htype, if_true, List.length_cons]
      omega
    · rfl

end Tally

/-! ## The outcomes of template arguments -/

namespace Store

variable (s : Store)

/-- A base, as reports name it. -/
def baseSample (b : BaseEdge) : Sample := ⟨b.typeString, .inheritance, (s.ownerScope b.owner).2⟩

/-- A template argument, as reports name it. -/
def argumentSample (a : TemplateArgument) : Sample :=
  ⟨a.typeString, .templateArgument,
    (s.ownerScope a.owner).2 ++ "<#" ++ toString a.position.toNat ++ ">"⟩

end Store

/-- A reference of a member or typedef, as reports name it. -/
def Unresolved.sample (u : Unresolved) : Sample := ⟨u.reference.typeString, u.owner.site, u.parent⟩

namespace Sharing

variable {s : Store} {h : Sharing} {done : List (TemplateArgument × ReferenceId)}

/-- The outcome of an argument is that of the reference it gets. -/
theorem outcome_step (h : Sharing) (a : TemplateArgument) :
    (h.step a).2.outcome = (h.step a).1.outcomeOf (h.referenceOf a) := by
  rw [step]
  cases hr : a.reference with
  | some id =>
    simp only [referenceOf_of_some hr, Sharing.withReference]
    split
    · rfl
    · rw [outcomeOf, Table.find?_insert, if_pos rfl]
      rfl
  | none =>
    simp only [referenceOf_of_none hr, Sharing.withoutReference]
    cases h.byString.find? a.typeString with
    | some id => rfl
    | none =>
      dsimp only [Store.stageReference]
      rw [Option.getD_none, outcomeOf, Table.find?_insert, if_pos rfl]
      rfl

/-- A reference that has an outcome keeps it. -/
theorem Tracks.outcomeOf_step (ht : Tracks s h done) (a : TemplateArgument) {id : ReferenceId}
    (hid : h.outcomes.contains id = true) : (h.step a).1.outcomeOf id = h.outcomeOf id := by
  rw [Sharing.step]
  cases hr : a.reference with
  | some rid =>
    simp only [Sharing.withReference]
    split
    · rfl
    · next hnew =>
      rw [outcomeOf, outcomeOf, Table.find?_insert, if_neg]
      rintro rfl
      exact hnew hid
  | none =>
    simp only [Sharing.withoutReference]
    cases h.byString.find? a.typeString with
    | some rid => rfl
    | none =>
      dsimp only [Store.stageReference]
      rw [outcomeOf, outcomeOf, Table.find?_insert, if_neg]
      -- the number of the new reference is that of no other
      rintro rfl
      obtain ⟨-, -, -, r, hr, -⟩ := ht.exists_first hid
      rw [ht.sound.next_not_mem_created] at hr
      cases hr

theorem sample_step (h : Sharing) (a : TemplateArgument) :
    (h.step a).2.sample = h.store.argumentSample a := rfl

theorem Tracks.argumentSample_eq (ht : Tracks s h done) (a : TemplateArgument) :
    h.store.argumentSample a = s.argumentSample a := by
  rw [Store.argumentSample, Store.argumentSample, ht.ownerScope_eq]

section Run

variable (hs : s.Sound) (as : List TemplateArgument)
  (has : ∀ a ∈ as, ∀ id, a.reference = some id →
    ∃ r, s.references.find? id = some r ∧ r.resolution = none)

include hs has

theorem Tracks.outcomeOf_run (ht : Tracks s h done) {id : ReferenceId}
    (hid : h.outcomes.contains id = true) : (h.run as).1.outcomeOf id = h.outcomeOf id := by
  induction as generalizing h done with
  | nil => rfl
  | cons a as ih =>
    rw [List.forall_mem_cons] at has
    have hstep := ht.step hs a has.1
    have hcontains : (h.step a).1.outcomes.contains id = true := by
      rw [hstep.outcomes, List.map_append, List.mem_append]
      exact .inl ((ht.outcomes id).1 hid)
    exact (ih has.2 hstep hcontains).trans (ht.outcomeOf_step a hid)

/-- **The outcomes of all arguments**, at the end of the pass. -/
theorem Tracks.map_run (ht : Tracks s h done) :
    (h.run as).2.map (fun i => (i.sample, i.outcome)) = (h.assign as).map fun p =>
      (s.argumentSample p.1, (h.run as).1.outcomeOf p.2) := by
  induction as generalizing h done with
  | nil => rfl
  | cons a as ih =>
    rw [List.forall_mem_cons] at has
    have hstep := ht.step hs a has.1
    have hcontains : (h.step a).1.outcomes.contains (h.referenceOf a) = true := by
      rw [hstep.outcomes, List.map_append, List.mem_append]
      exact .inr List.mem_cons_self
    have hlater := hstep.outcomeOf_run hs as has.2 hcontains
    have hrest := ih has.2 hstep
    rw [Sharing.run, assign, List.map_cons, List.map_cons, hrest, sample_step, outcome_step,
      ht.argumentSample_eq, ← hlater]

end Run

end Sharing

/-! ## The outcomes of the pass -/

namespace Store

variable (s : Store)

/-- What is unresolved, as reports name it and in the order in which it is dealt with. -/
def listed : List Sample :=
  s.unresolvedReferences.map Unresolved.sample ++ s.unresolvedBases.map s.baseSample ++
    s.unresolvedArguments.map s.argumentSample

/-- How much is unresolved at the sites of one kind. -/
def unresolvedCount : Site → Nat
  | .inheritance => s.unresolvedBases.length
  | .templateArgument => s.unresolvedArguments.length
  | site => (s.unresolvedReferences.filter (·.owner.site = site)).length

/-- What is unresolved with what the pass finds for it. -/
def verdicts : List Verdict :=
  s.unresolvedReferences.map (fun u =>
      (u.sample, s.resolution? u.reference.typeString u.scope)) ++
    s.unresolvedBases.map (fun b => (s.baseSample b, (s.baseTarget? b).map .type)) ++
    s.assigned.map fun p => (s.argumentSample p.1, s.shared.outcomeOf p.2)

variable {s}

theorem site_ne_of_reference (u : Unresolved) :
    u.owner.site ≠ .inheritance ∧ u.owner.site ≠ .templateArgument := by
  cases u.owner <;> exact ⟨nofun, nofun⟩

theorem filter_site_of_eq {α : Type} {f : α → Sample} {site : Site} (hf : ∀ a, (f a).site = site)
    (as : List α) : (as.map f).filter (·.site = site) = as.map f :=
  List.filter_eq_self.2 (List.forall_mem_map.2 fun a _ => decide_eq_true (hf a))

theorem filter_site_of_ne {α : Type} {f : α → Sample} {site : Site} (hf : ∀ a, (f a).site ≠ site)
    (as : List α) : (as.map f).filter (·.site = site) = [] := by
  refine List.filter_eq_nil_iff.2 (List.forall_mem_map.2 fun a _ => ?_)
  rw [decide_eq_true_eq]
  exact hf a

/-- Each kind of site has its own part of what is listed. -/
theorem filter_site_listed (s : Store) (site : Site) : s.listed.filter (·.site = site) =
    match site with
    | .inheritance => s.unresolvedBases.map s.baseSample
    | .templateArgument => s.unresolvedArguments.map s.argumentSample
    | site => (s.unresolvedReferences.map Unresolved.sample).filter (·.site = site) := by
  have hbase : ∀ site, site ≠ .inheritance →
      (s.unresolvedBases.map s.baseSample).filter (·.site = site) = [] := fun site hne =>
    filter_site_of_ne (fun _ => hne.symm) _
  have hargument : ∀ site, site ≠ .templateArgument →
      (s.unresolvedArguments.map s.argumentSample).filter (·.site = site) = [] := fun site hne =>
    filter_site_of_ne (fun _ => hne.symm) _
  rw [listed, List.filter_append, List.filter_append]
  cases site with
  | inheritance =>
    rw [filter_site_of_ne (fun u => (site_ne_of_reference u).1) s.unresolvedReferences,
      filter_site_of_eq (f := s.baseSample) fun _ => rfl, hargument _ (by decide), List.nil_append,
      List.append_nil]
  | templateArgument =>
    rw [filter_site_of_ne (fun u => (site_ne_of_reference u).2) s.unresolvedReferences,
      filter_site_of_eq (f := s.argumentSample) fun _ => rfl, hbase _ (by decide), List.append_nil,
      List.nil_append]
  | member => rw [hbase _ (by decide), hargument _ (by decide), List.append_nil, List.append_nil]
  | typedef => rw [hbase _ (by decide), hargument _ (by decide), List.append_nil, List.append_nil]

theorem length_listed (s : Store) (site : Site) :
    (s.listed.filter (·.site = site)).length = s.unresolvedCount site := by
  have hreferences : ((s.unresolvedReferences.map Unresolved.sample).filter
      (·.site = site)).length = (s.unresolvedReferences.filter (·.owner.site = site)).length := by
    rw [List.filter_map, List.length_map]
    rfl
  rw [filter_site_listed]
  cases site with
  | inheritance => exact List.length_map _
  | templateArgument => exact List.length_map _
  | member => exact hreferences
  | typedef => exact hreferences

theorem unresolvedCount_references (s : Store) :
    s.unresolvedCount .member + s.unresolvedCount .typedef = s.unresolvedReferences.length := by
  simp only [unresolvedCount]
  generalize s.unresolvedReferences = us
  induction us with
  | nil => rfl
  | cons u us ih =>
    rw [List.length_cons, ← ih, List.filter_cons, List.filter_cons]
    cases u.owner <;>
      simp only [ReferenceOwner.site, decide_true, if_true, List.length_cons, reduceCtorEq,
        decide_false, Bool.false_eq_true, if_false] <;>
      omega

theorem map_fst_verdicts (s : Store) : s.verdicts.map Prod.fst = s.listed := by
  simp only [verdicts, listed, List.map_append, List.map_map, ← map_fst_assigned]
  rfl

theorem Sound.nodup_unresolvedBases (h : s.Sound) :
    (s.unresolvedBases.map BaseEdge.id).Nodup := by
  have hids : (s.bases.values.map BaseEdge.id).Nodup := by
    rw [Table.map_values h.baseId]
    exact h.bases_nodup
  exact hids.sublist (List.filter_sublist.map _)

theorem Sound.nodup_unresolvedArguments (h : s.Sound) :
    (s.unresolvedArguments.map TemplateArgument.id).Nodup := by
  have hids : (s.arguments.values.map TemplateArgument.id).Nodup := by
    rw [Table.map_values h.argumentId]
    exact h.arguments_nodup
  exact hids.sublist (List.filter_sublist.map _)

section Pass

variable (h : s.Sound) (hstaged : s.staged = {})

include h hstaged

/-- **The outcomes that the pass reports.** -/
theorem map_items :
    s.planResolution.items.map (fun i => (i.sample, i.outcome)) = s.verdicts := by
  have hitems : s.planResolution.items = s.unresolvedReferences.map s.resolveReference ++
      s.unresolvedBases.map s.resolveBase ++
        (Sharing.run { store := s } s.unresolvedArguments).2 := by
    simp only [planResolution, List.map_map]
    rfl
  have harguments := (Sharing.tracks_start h hstaged).map_run h s.unresolvedArguments
    fun a ha => (h.find?_unresolvedArgument ha).2
  have hreferences : ∀ u, ((s.resolveReference u).sample, (s.resolveReference u).outcome) =
      (u.sample, s.resolution? u.reference.typeString u.scope) := by
    intro u
    rw [resolveReference, ← value_resolveNoting]
    rfl
  have hbases : ∀ b, ((s.resolveBase b).sample, (s.resolveBase b).outcome) =
      (s.baseSample b, (s.baseTarget? b).map .type) := by
    intro b
    refine Prod.ext rfl ?_
    simp only [resolveBase, value_resolveNoting, baseTarget?]
    rcases s.resolution? b.typeString (s.ownerScope b.owner).1 with _ | t | _
    · rfl
    · by_cases hself : t = b.owner <;> simp [hself]
    · rfl
  rw [hitems, verdicts, List.map_append, List.map_append, harguments, List.map_map, List.map_map]
  simp only [Function.comp_def, hreferences, hbases]
  rfl

/-- What the pass leaves of the bases, in the same order. -/
theorem unresolvedBases_resolved :
    s.resolved.unresolvedBases = s.unresolvedBases.filter fun b => (s.baseTarget? b).isNone := by
  have hvalues := h.planResolution.values_bases_committed
  have hbases : s.planResolution.store.bases = s.bases := by
    rw [store_planResolution h hstaged]
  have hwrites : s.planResolution.store.staged.bases = s.foundBases := by
    rw [store_planResolution h hstaged]
  rw [hbases, hwrites] at hvalues
  have hfirst : ∀ b ∈ s.unresolvedBases, Table.firstWrite? s.foundBases b.id = s.baseTarget? b :=
    fun b hb => Table.firstWrite?_of_key BaseEdge.id s.baseTarget? h.nodup_unresolvedBases hb
  rw [unresolvedBases, resolved, hvalues, List.filter_map, unresolvedBases, List.filter_filter]
  change ((s.bases.values.filter fun b =>
    (b.target.or (Table.firstWrite? s.foundBases b.id)).isNone).map _) = _
  -- a base that is left is as it was
  have hleft : ∀ b ∈ s.bases.values,
      ((b.target.or (Table.firstWrite? s.foundBases b.id)).isNone) =
        ((s.baseTarget? b).isNone && b.target.isNone) := by
    intro b hb
    cases htarget : b.target with
    | some t => simp
    | none =>
      have hopen : b ∈ s.unresolvedBases := List.mem_filter.2 ⟨hb, by rw [htarget]; rfl⟩
      rw [Option.none_or, hfirst b hopen]
      simp
  rw [List.filter_congr (q := fun b => (s.baseTarget? b).isNone && b.target.isNone) hleft]
  refine (List.map_congr_left fun b hb => ?_).trans (List.map_id _)
  obtain ⟨hmem, hnone⟩ := List.mem_filter.1 hb
  rw [Bool.and_eq_true] at hnone
  have htarget := Option.isNone_iff_eq_none.1 hnone.2
  have hopen : b ∈ s.unresolvedBases := List.mem_filter.2 ⟨hmem, hnone.2⟩
  rw [htarget, Option.none_or, hfirst b hopen, Option.isNone_iff_eq_none.1 hnone.1, ← htarget]
  rfl

variable (hseparate : s.Separate)

include hseparate

/-- **What the pass leaves is what nothing was found for**, in the same order. -/
theorem listed_resolved :
    s.resolved.listed = (s.verdicts.filter (·.2.isNone)).map Prod.fst := by
  have hscopes := ownerScope_resolved h hstaged
  have hopen : ∀ {id w}, (∃ r, s.resolved.references.find? id = some r ∧ r.resolution = w) →
      s.leavesOpen id = w.isNone := by
    rintro id w ⟨r, hr, rfl⟩
    have hneeds := r.needsResolution_iff.trans Option.isNone_iff_eq_none.symm
    rw [leavesOpen, hr, Option.any_some, Bool.eq_iff_iff.2 hneeds]
  have hreferences : s.resolved.unresolvedReferences = s.unresolvedReferences.filter fun u =>
      (s.resolution? u.reference.typeString u.scope).isNone := by
    rw [unresolvedReferences_resolved h hstaged]
    exact List.filter_congr fun u hu => hopen (h.resolution_listed hstaged hseparate hu)
  have harguments : s.resolved.unresolvedArguments =
      (s.assigned.filter fun p => (s.shared.outcomeOf p.2).isNone).map linked := by
    rw [unresolvedArguments_resolved h hstaged (map_fst_assigned s) (h.tracks_shared hstaged)]
    congr 1
    refine List.filter_congr fun p hp => hopen ?_
    obtain ⟨-, r, -, hr, -, hresolution⟩ := h.resolution_assigned hstaged hseparate hp
    exact ⟨r, hr, hresolution⟩
  have hbase : s.resolved.baseSample = s.baseSample := by
    funext b
    rw [baseSample, baseSample, hscopes]
  have hargument : ∀ p, s.resolved.argumentSample (linked p) = s.argumentSample p.1 := by
    intro p
    rw [argumentSample, argumentSample, hscopes]
    rfl
  rw [listed, hreferences, unresolvedBases_resolved h hstaged, harguments, hbase, verdicts]
  simp only [List.filter_append, List.map_append, List.filter_map, List.map_map,
    Function.comp_def, Option.isNone_map, hargument]

/-! ## What is counted as changed -/

omit hseparate in
/-- Every link concerns another argument, and one that had no reference. -/
theorem argumentsLinked_planResolution : s.planResolution.store.changes.argumentsLinked =
    (s.unresolvedArguments.filter (·.reference.isNone)).length := by
  have hlinks : s.shared.links =
      (s.assigned.filter (·.1.reference.isNone)).map fun p => (p.1.id, p.2) := by
    rw [(h.assigns_shared hstaged).links]
    generalize s.assigned = ps
    induction ps with
    | nil => rfl
    | cons p ps ih =>
      rw [List.flatMap_cons, ih, List.filter_cons, Sharing.linkOf]
      cases p.1.reference.isNone <;> rfl
  have hids : (s.shared.links.map Prod.fst).Nodup := by
    have hassigned : (s.assigned.map fun p => p.1.id).Nodup := by
      have hmap : s.assigned.map (fun p => p.1.id) =
          s.unresolvedArguments.map TemplateArgument.id := by
        rw [← map_fst_assigned, List.map_map]
        rfl
      rw [hmap]
      exact h.nodup_unresolvedArguments
    rw [hlinks, List.map_map]
    exact hassigned.sublist (List.filter_sublist.map _)
  have hcount : s.planResolution.store.changes.argumentsLinked =
      (s.arguments.writeAll changeArgument s.shared.links).2 := by
    rw [store_planResolution h hstaged]
    rfl
  rw [hcount, Table.length_writeAll hids, hlinks, List.length_map, ← map_fst_assigned,
    List.filter_map, List.length_map]
  · rfl
  · intro w hw
    rw [hlinks] at hw
    obtain ⟨p, hp, rfl⟩ := List.mem_map.1 hw
    obtain ⟨hp, hnone⟩ := List.mem_filter.1 hp
    have hmem : p.1 ∈ s.unresolvedArguments := mem_unresolvedArguments_of_assigned hp
    rw [(h.find?_unresolvedArgument hmem).1, Option.bind_some, changeArgument, if_pos hnone]
    rfl

omit hseparate in
theorem basesResolved_planResolution :
    s.planResolution.store.changes.basesResolved = s.foundBases.length := by
  have hids : (s.foundBases.map Prod.fst).Nodup := by
    refine List.pairwise_map.2 (List.Pairwise.filterMap _ (fun b b' hne w hw w' hw' => ?_)
      (List.pairwise_map.1 h.nodup_unresolvedBases))
    obtain ⟨_, -, rfl⟩ := Option.map_eq_some_iff.1 hw
    obtain ⟨_, -, rfl⟩ := Option.map_eq_some_iff.1 hw'
    exact hne
  have hcount : s.planResolution.store.changes.basesResolved =
      (s.bases.writeAll changeBase s.foundBases).2 := by
    rw [store_planResolution h hstaged]
    rfl
  rw [hcount, Table.length_writeAll hids]
  intro w hw
  obtain ⟨b, hb, heq⟩ := List.mem_filterMap.1 hw
  obtain ⟨t, -, rfl⟩ := Option.map_eq_some_iff.1 heq
  obtain ⟨hfind, hnone⟩ := h.find?_unresolvedBase hb
  rw [hfind, Option.bind_some, changeBase, if_pos (Option.isNone_iff_eq_none.2 hnone)]
  rfl

omit h hstaged hseparate in
/-- The outcomes at bases that name a type are what is staged for bases. -/
theorem resolved_inheritance :
    (((s.verdicts.filter (·.1.site = .inheritance)).map Prod.snd).foldl Tally.count {}).resolved =
      s.foundBases.length := by
  have hbases : s.verdicts.filter (·.1.site = .inheritance) = s.unresolvedBases.map fun b =>
      (s.baseSample b, (s.baseTarget? b).map .type) := by
    have hreferences : (s.unresolvedReferences.map fun u =>
        (u.sample, s.resolution? u.reference.typeString u.scope)).filter
          (·.1.site = .inheritance) = [] := by
      refine List.filter_eq_nil_iff.2 (List.forall_mem_map.2 fun u _ hsite => ?_)
      exact (site_ne_of_reference u).1 (of_decide_eq_true hsite)
    have harguments : (s.assigned.map fun p =>
        (s.argumentSample p.1, s.shared.outcomeOf p.2)).filter (·.1.site = .inheritance) = [] :=
      List.filter_eq_nil_iff.2 (List.forall_mem_map.2 fun p _ => Bool.false_ne_true)
    rw [verdicts, List.filter_append, List.filter_append, hreferences, harguments,
      List.filter_eq_self.2 (List.forall_mem_map.2 fun b _ => rfl), List.append_nil,
      List.nil_append]
  have htype : ∀ o : Option TypeId,
      ((o.map Resolution.type).any fun w => w != .primitive) = o.isSome := by
    rintro (_ | t) <;> rfl
  rw [hbases, Tally.resolved_foldl, List.map_map, List.filter_map, List.length_map, foundBases,
    List.length_filterMap_eq_countP, List.countP_eq_length_filter]
  simp only [Function.comp_def, htype, Option.isSome_map]
  exact Nat.zero_add _

omit hseparate in
theorem referencesCreated_planResolution :
    s.planResolution.store.changes.referencesCreated = s.shared.created := by
  rw [(h.assigns_shared hstaged).count, store_planResolution h hstaged]
  rfl

end Pass

/-! ## The stores that a pass meets -/

/-- A store that has been built, declaration by declaration or from a document. -/
def Built (s : Store) : Prop :=
  empty.LeadsBy Operation.IsDeclaration s ∨ ∃ d : Document, d.toStore.value = .ok s

/-- A store that passes have gone over after it was built. -/
def Processed (s : Store) : Prop :=
  ∃ start : Store, start.Built ∧ start.LeadsBy Operation.IsPass s

theorem Processed.reachable (h : s.Processed) : s.Reachable := by
  obtain ⟨start, hstart | ⟨d, hd⟩, hpasses⟩ := h
  · exact hstart.leads.trans hpasses.leads
  · exact (Document.reachable_toStore hd).trans hpasses.leads

theorem declaredIds_committed (h : s.Sound) : s.committed.declaredIds = s.declaredIds := by
  have htypedefs : s.committed.typedefs = s.typedefs := rfl
  rw [declaredIds, declaredIds, h.values_members_committed, htypedefs, List.filterMap_map]
  rfl

/-- Committing keeps references apart if what is staged does. -/
theorem Separate.committed (hseparate : s.Separate) (h : s.Sound)
    (hlinks : ∀ w ∈ s.staged.links, w.2 ∉ s.declaredIds) : s.committed.Separate := by
  intro a ha id hid
  rw [declaredIds_committed h]
  rw [h.values_arguments_committed] at ha
  obtain ⟨a₀, ha₀, rfl⟩ := List.mem_map.1 ha
  rcases Option.or_eq_some_iff.1 hid with hold | ⟨-, hnew⟩
  · exact hseparate a₀ ha₀ id hold
  · exact hlinks _ (Table.mem_entries_of_find? hnew)

theorem Separate.flush (hseparate : s.Separate) (h : s.Sound)
    (hlinks : ∀ w ∈ s.staged.links, w.2 ∉ s.declaredIds) : s.flush.value.2.Separate := by
  by_cases hadmitted : s.Admitted
  · rw [value_flush_of_admitted hadmitted]
    exact hseparate.committed h hlinks
  · obtain ⟨e, he⟩ := value_flush_of_not_admitted hadmitted
    rw [he]
    exact hseparate

/-- A pass keeps references apart. -/
theorem Separate.perform (hseparate : s.Separate) (h : s.Sound) (hstaged : s.staged = {})
    {o : Operation} (ho : o.IsPass) : (s.perform o).Separate := by
  cases o with
  | resolve sampleLimit =>
    have hplan := store_planResolution h hstaged
    have hids : s.planResolution.store.declaredIds = s.declaredIds := by
      rw [hplan]
      rfl
    have hsame : s.planResolution.store.Separate := by
      rw [hplan]
      exact hseparate
    rw [Store.perform, store_runResolution]
    refine hsame.flush h.planResolution fun w hw => ?_
    rw [hids]
    rw [hplan] at hw
    obtain ⟨p, hp, -, rfl⟩ := (h.tracks_shared hstaged).links w hw
    exact h.not_declared_of_assigned hstaged hseparate hp
  | layOut keepLayouts =>
    rw [Store.perform, store_runLayout]
    refine Separate.flush (s := s.stageLayouts s.layoutItems.1) hseparate (h.stageLayouts _)
      fun w hw => ?_
    have hlinks : (s.stageLayouts s.layoutItems.1).staged.links = [] :=
      congrArg Batch.links hstaged
    rw [hlinks] at hw
    cases hw
  | _ => exact ho.elim

theorem staged_perform_of_isPass (s : Store) {o : Operation} (ho : o.IsPass) :
    (s.perform o).staged = {} := by
  cases o with
  | resolve sampleLimit =>
    rw [Store.perform, store_runResolution]
    exact staged_flush _
  | layOut keepLayouts =>
    rw [Store.perform, store_runLayout]
    exact staged_flush _
  | _ => exact ho.elim

/-- The references of template arguments are numbered after all that have been declared. -/
theorem le_of_mem_argumentReferences (declared : List (ArgumentId × LinkRecord)) :
    ∀ n, ∀ p ∈ s.argumentReferences n declared, n ≤ p.2.id.val := by
  induction declared with
  | nil => exact fun _ _ hp => by cases hp
  | cons q rest ih =>
    intro n p hp
    obtain ⟨a, r⟩ := q
    rw [argumentReferences] at hp
    cases hfound : s.found r with
    | none =>
      rw [hfound] at hp
      exact ih n p hp
    | some found =>
      rw [hfound] at hp
      rcases List.mem_cons.1 hp with rfl | hp
      · exact Nat.le_refl n
      · have hlater := ih (n + 1) p hp
        omega

theorem stages_stageRecorded (s : Store) (declared : DeclaredDocument) :
    ∃ b n, s.stageRecorded declared = { s with staged := b, nextId := n } := by
  simp only [stageRecorded, stageArguments_eq, stageResolutions, stageBases, stageLinks,
    stageOffsets, stageSizes]
  exact ⟨_, _, rfl⟩

/-- What a document says of template arguments is staged for new references. -/
theorem links_stageRecorded (h : s.Sound) (hstaged : s.staged = {}) (declared : DeclaredDocument) :
    ∀ w ∈ (s.stageRecorded declared).staged.links, w.2 ∉ s.declaredIds := by
  intro w hw hdeclared
  have hlinks : (s.stageRecorded declared).staged.links =
      (s.argumentReferences s.nextId declared.parts.arguments).map fun p => (p.1, p.2.id) := by
    simp only [stageRecorded, stageArguments_eq, stageResolutions, stageBases, stageLinks,
      stageOffsets, stageSizes, hstaged, List.nil_append]
  rw [hlinks] at hw
  obtain ⟨p, hp, rfl⟩ := List.mem_map.1 hw
  have hle := le_of_mem_argumentReferences _ _ p hp
  have hlt : p.2.id.val < s.nextId := by
    refine h.lt _ (List.mem_flatten.2 ⟨s.referenceIds.map Id.val, by simp [numbersByKind], ?_⟩)
    exact List.mem_map_of_mem (List.mem_append_left _ (mem_declaredIds h hdeclared))
  omega

theorem Built.separate (h : s.Built) : s.staged = {} ∧ s.Separate := by
  rcases h with hdeclared | ⟨d, hd⟩
  · exact ⟨staged_of_declarations hdeclared, (unlinked_of_declarations hdeclared).separate⟩
  refine ⟨Document.staged_toStore hd, ?_⟩
  obtain ⟨declared, s₀, hdocument, hmade⟩ := Document.exists_declared hd
  have hdeclares := leadsBy_declareDocument (p := Operation.IsDeclaration)
    (fun _ ho _ => ho) hdocument
  have hsound := hdeclares.leads.sound sound_empty
  have hstaged := staged_of_declarations hdeclares
  obtain ⟨b, n, hstages⟩ := stages_stageRecorded s₀ declared
  have hids : (s₀.stageRecorded declared).declaredIds = s₀.declaredIds := by
    rw [hstages]
    rfl
  have hseparate : (s₀.stageRecorded declared).Separate := by
    rw [hstages]
    exact (unlinked_of_declarations hdeclares).separate
  rcases hmade with ⟨rfl, -⟩ | rfl
  · exact hseparate
  · exact hseparate.flush ((leadsBy_stageRecorded s₀ declared).leads.sound hsound)
      (hids ▸ links_stageRecorded hsound hstaged declared)

/-- **Nothing is staged on the stores that a pass meets, and template arguments have references of
their own.** -/
theorem Processed.separate (h : s.Processed) : s.staged = {} ∧ s.Separate := by
  obtain ⟨start, hstart, hpasses⟩ := h
  have hreachable : start.Reachable := Processed.reachable ⟨start, hstart, .refl⟩
  have hkept := hpasses.keeps (P := fun t => t.Sound ∧ t.staged = {} ∧ t.Separate)
    (fun t o ho ht => ⟨ht.1.perform o, t.staged_perform_of_isPass ho,
      ht.2.2.perform ht.1 ht.2.1 ho⟩) ⟨hreachable.sound, hstart.separate⟩
  exact hkept.2

/-! ## The report -/

/-- **The report accounts for every type string and for every change.** A pass succeeds. At each
kind of site it reports as many type strings as were unresolved, and as many unresolved ones as
there are afterwards; its samples are the first of those. It has created the references that it
says, and linked every unresolved template argument that had none. -/
theorem report_accounts (h : s.Processed) (k : Nat) :
    ∃ report, (s.runResolution k).outcome = .ok report ∧
      (∀ site, (report.counts site).total = s.unresolvedCount site) ∧
      (∀ site, (report.counts site).unresolved =
        (s.runResolution k).store.unresolvedCount site) ∧
      (report.counts .member).unresolved + (report.counts .typedef).unresolved =
        (s.runResolution k).store.unresolvedReferences.length ∧
      report.samples = (s.runResolution k).store.listed.take k ∧
      (s.runResolution k).store.listed.Sublist s.listed ∧
      report.changes.referencesCreated = report.referencesCreated ∧
      report.changes.basesResolved = (report.counts .inheritance).resolved ∧
      report.changes.argumentsLinked =
        (s.unresolvedArguments.filter (·.reference.isNone)).length := by
  have hs := h.reachable.sound
  obtain ⟨hstaged, hseparate⟩ := h.separate
  obtain ⟨hstore, -⟩ := run_resolved hs hstaged k
  have hleft := listed_resolved hs hstaged hseparate
  rw [hstore, outcome_runResolution hs hstaged k, ResolutionReport.ofItems_eq,
    map_items hs hstaged]
  generalize hstart : ({ sampleLimit := k, referencesCreated := s.shared.created } :
    ResolutionReport) = start
  -- the counts of a site are those of the outcomes there
  have hcounts : ∀ site, (start.recordAll s.verdicts).counts site =
      ((s.verdicts.filter (·.1.site = site)).map Prod.snd).foldl Tally.count {} := by
    intro site
    rw [ResolutionReport.counts_ofVerdicts, ← hstart]
    cases site <;> rfl
  have htotal : ∀ site, ((start.recordAll s.verdicts).counts site).total =
      s.unresolvedCount site := by
    intro site
    rw [hcounts, Tally.total_foldl, List.length_map, ← length_listed, ← map_fst_verdicts,
      List.filter_map, List.length_map]
    exact Nat.zero_add _
  have hunresolved : ∀ site, ((start.recordAll s.verdicts).counts site).unresolved =
      s.resolved.unresolvedCount site := by
    intro site
    rw [hcounts, Tally.unresolved_foldl, ← length_listed, hleft, List.filter_map, List.filter_map,
      List.length_map, List.length_map, List.filter_filter, List.filter_filter]
    exact (Nat.zero_add _).trans
      (congrArg List.length (List.filter_congr fun _ _ => Bool.and_comm _ _))
  have hsamples : (start.recordAll s.verdicts).samples = s.resolved.listed.take k := by
    have hnone : start.samples = ([] : List Sample).take start.sampleLimit := by
      rw [← hstart, List.take_nil]
    rw [ResolutionReport.samples_ofVerdicts s.verdicts hnone, hleft, ← hstart]
    rfl
  have hcreated : (start.recordAll s.verdicts).referencesCreated = s.shared.created := by
    have hitems := referencesCreated_ofItems k s.shared.created s.planResolution.items
    rwa [ResolutionReport.ofItems_eq, map_items hs hstaged, hstart] at hitems
  have hinheritance : ((start.recordAll s.verdicts).counts .inheritance).resolved =
      s.foundBases.length := by
    rw [hcounts]
    exact resolved_inheritance
  refine ⟨_, rfl, fun site => ?_, fun site => ?_, ?_, hsamples, ?_, ?_, ?_, ?_⟩
  · rw [ResolutionReport.counts_changes, htotal]
  · rw [ResolutionReport.counts_changes, hunresolved]
  · rw [ResolutionReport.counts_changes, hunresolved, ResolutionReport.counts_changes, hunresolved,
      unresolvedCount_references]
  · rw [hleft, ← map_fst_verdicts]
    exact List.filter_sublist.map _
  · exact (referencesCreated_planResolution hs hstaged).trans hcreated.symm
  · rw [ResolutionReport.counts_changes, hinheritance]
    exact basesResolved_planResolution hs hstaged
  · exact argumentsLinked_planResolution hs hstaged

/-- A derived type with members, bases and template arguments of which some name nothing. -/
def patchy : Store :=
  [.addType { name := "Base", kind := .struct }, .addType { name := "Derived", kind := .struct },
    .addMember ⟨2⟩ { name := "x", typeString := "int" },
    .addMember ⟨2⟩ { name := "y", typeString := "Missing" },
    Operation.addTypedef "" "Alias" "Base", .addBase ⟨2⟩ "Base", .addBase ⟨2⟩ "Derived",
    .addArgument ⟨2⟩ "Missing", .addArgument ⟨2⟩ "Missing"].foldl perform empty

theorem processed_patchy : patchy.Processed := by
  refine ⟨patchy, .inl (leadsBy_foldl _ ?_ _), .refl⟩
  simp [Operation.IsDeclaration]

theorem report_accounts_patchy : patchy.Processed ∧
    ∃ report, (patchy.runResolution 2).outcome = .ok report ∧
      (report.counts .templateArgument).unresolved = 2 ∧ report.samples.length = 2 ∧
      report.changes.argumentsLinked = 2 := by
  obtain ⟨report, hok, -, hunresolved, -, hsamples, -, -, -, hlinked⟩ :=
    report_accounts processed_patchy 2
  have hafter : (patchy.runResolution 2).store.unresolvedCount .templateArgument = 2 ∧
      ((patchy.runResolution 2).store.listed.take 2).length = 2 ∧
      (patchy.unresolvedArguments.filter (·.reference.isNone)).length = 2 := by
    decide +kernel
  refine ⟨processed_patchy, report, hok, ?_, ?_, ?_⟩
  · rw [hunresolved, hafter.1]
  · rw [hsamples, hafter.2.1]
  · rw [hlinked, hafter.2.2]

end Store

end DeclGraph
