import DeclGraph.Proofs.ResolutionPass

/-!
# A second resolution pass

What a pass leaves unresolved was unresolved before, and the pass has found nothing for it. A second
pass finds something for it only if one of its chains meets a typedef that the first pass has
resolved.

* `Store.unresolvedReferences_resolved`, `Store.unresolvedArguments_resolved`: what the first pass
  leaves.
* `Store.Late`: something that the first pass leaves and a second one resolves.
* `Store.second_run`: what a second pass changes.
-/

namespace DeclGraph

namespace Store

variable {s : Store}

/-- Whether the pass leaves a reference unresolved. -/
def leavesOpen (s : Store) (id : ReferenceId) : Bool :=
  (s.resolved.references.find? id).any (·.needsResolution)

theorem leavesOpen_eq_true {id : ReferenceId} : s.leavesOpen id = true ↔
    ∃ r, s.resolved.references.find? id = some r ∧ r.resolution = none := by
  rw [leavesOpen, Option.any_eq_true]
  simp only [Reference.needsResolution_iff]

section Leaves

variable (h : s.Sound) (hstaged : s.staged = {})

include h hstaged

/-- A reference that the pass leaves is as it was, and the pass has found nothing for it. -/
theorem Sound.left_open {id : ReferenceId} {r : Reference}
    (hr : s.shared.store.created.find? id = some r) (hopen : s.leavesOpen id = true) :
    s.resolved.references.find? id = some r ∧ r.resolution = none ∧
      ∀ w, (id, w) ∉ s.foundReferences ++ s.shared.resolutions := by
  obtain ⟨r₁, hr₁, hnone⟩ := leavesOpen_eq_true.1 hopen
  obtain ⟨r', hr', hkept, hstage⟩ := h.find?_resolved hstaged hr
  obtain rfl := Option.some.inj (hr₁.symm.trans hr')
  have hsome : ¬r₁.resolution.isSome = true := by
    rw [hnone]
    exact Bool.false_ne_true
  obtain rfl := hkept.resolve_right fun ⟨_, w, hw⟩ => hsome (hw ▸ r.isSome_resolution_apply w)
  exact ⟨hr', hnone, fun w hw => hsome (hstage w hw)⟩

/-! ## Members and typedefs -/

theorem filter_map_resolved {id : ReferenceId} (hid : id ∈ s.references.keys)
    (place : Reference → Unresolved) (hplace : ∀ r, (place r).reference = r) :
    ((s.resolved.references.find? id).map place).filter (·.reference.needsResolution) =
      (((s.references.find? id).map place).filter (·.reference.needsResolution)).filter
        fun u => s.leavesOpen u.reference.id := by
  obtain ⟨r, hr⟩ := Table.exists_find? hid
  have hrid : r.id = id := h.referenceId _ (Table.mem_entries_of_find? hr)
  obtain ⟨r', hr', hkept | ⟨hnone, w, rfl⟩, -⟩ :=
    h.find?_resolved hstaged (h.find?_created_shared hstaged hr)
  -- a reference that the pass has kept is open if it needs a resolution
  · subst hkept
    have hopen : s.leavesOpen id = r'.needsResolution := by rw [leavesOpen, hr', Option.any_some]
    simp only [hr', hr, Option.map_some, Option.filter_some, hplace]
    cases hneeds : r'.needsResolution with
    | true => simp only [if_true, Option.filter_some, hplace, hrid, hopen, hneeds]
    | false => rfl
  · have hneeds : (r.apply w).needsResolution = false := by
      rw [← Bool.not_eq_true, Reference.needsResolution_iff]
      exact fun hnone' => by simpa [hnone'] using r.isSome_resolution_apply w
    have hopen : s.leavesOpen id = false := by rw [leavesOpen, hr', Option.any_some, hneeds]
    simp only [hr', hr, Option.map_some, Option.filter_some, hplace, hneeds, hrid, hopen,
      r.needsResolution_iff.2 hnone, if_true, Bool.false_eq_true, if_false]

/-- **What the pass leaves of the references of members and typedefs**, in the same order. -/
theorem unresolvedReferences_resolved : s.resolved.unresolvedReferences =
    s.unresolvedReferences.filter fun u => s.leavesOpen u.reference.id := by
  have hmembers : ∀ m ∈ s.members.values,
      (s.resolved.memberReference? m).filter (·.reference.needsResolution) =
        ((s.memberReference? m).filter (·.reference.needsResolution)).filter
          fun u => s.leavesOpen u.reference.id := by
    intro m hm
    have hplace : s.resolved.memberPlace m = s.memberPlace m := by
      funext r
      rw [memberPlace, memberPlace, resolved_eq h hstaged]
    rw [memberReference?_eq, memberReference?_eq, hplace]
    cases hid : m.reference with
    | none => rfl
    | some id =>
      refine filter_map_resolved h hstaged ?_ (s.memberPlace m) fun _ => rfl
      exact h.memberReference _ (Table.mem_entries_of_find?
        (Table.find?_of_mem_values h.members_nodup h.memberId hm)) id hid
  have htypedefs : ∀ t ∈ s.typedefs.values,
      (s.resolved.typedefReference? t).filter (·.reference.needsResolution) =
        ((s.typedefReference? t).filter (·.reference.needsResolution)).filter
          fun u => s.leavesOpen u.reference.id := by
    intro t ht
    rw [typedefReference?_eq, typedefReference?_eq]
    refine filter_map_resolved h hstaged ?_ (typedefPlace t) fun _ => rfl
    exact h.typedefTarget _ (Table.mem_entries_of_find?
      (Table.find?_of_mem_values h.typedefs_nodup h.typedefId ht))
  have hall : s.resolved.declaredReferences.filter (·.reference.needsResolution) =
      (s.declaredReferences.filter (·.reference.needsResolution)).filter
        fun u => s.leavesOpen u.reference.id := by
    have hfields : s.resolved.members = s.members ∧ s.resolved.typedefs = s.typedefs := by
      rw [resolved_eq h hstaged]
      exact ⟨rfl, rfl⟩
    simp only [declaredReferences, hfields, List.filter_append, List.filter_filterMap]
    rw [List.filterMap_congr hmembers, List.filterMap_congr htypedefs]
  -- each reference is taken up once, before and after
  have hdistinct := distinctBy_filter (fun u : Unresolved => u.reference.id) s.leavesOpen
    (s.declaredReferences.filter (·.reference.needsResolution)) [] [] (by simp)
  rw [← hall] at hdistinct
  exact hdistinct

/-- Nothing was found for what the pass leaves. -/
theorem Sound.resolution?_of_left {u : Unresolved} (hu : u ∈ s.resolved.unresolvedReferences) :
    s.resolution? u.reference.typeString u.scope = none := by
  rw [unresolvedReferences_resolved h hstaged, List.mem_filter] at hu
  obtain ⟨hu, hopen⟩ := hu
  have hr := h.find?_created_shared hstaged (h.find?_unresolved hu).1
  obtain ⟨-, -, hnot⟩ := h.left_open hstaged hr hopen
  by_contra hfound
  obtain ⟨found, hfound⟩ := Option.ne_none_iff_exists'.1 hfound
  refine hnot found (List.mem_append_left _ (List.mem_filterMap.2 ⟨u, hu, ?_⟩))
  rw [hfound, Option.map_some]

end Leaves

/-! ## Template arguments -/

/-- Whether a template argument is still unresolved. -/
def isOpen (s : Store) (a : TemplateArgument) : Bool :=
  match a.reference with
  | none => true
  | some id => ((s.references.find? id).map (·.needsResolution)).getD true

/-- A template argument with the reference it has got. -/
def linked (p : TemplateArgument × ReferenceId) : TemplateArgument :=
  { p.1 with reference := some p.2 }

/-- A template argument as the pass leaves it. -/
def argumentAfter (s : Store) (a : TemplateArgument) : TemplateArgument :=
  (s.resolved.arguments.find? a.id).getD a

/-- An argument with a resolved reference has kept it. -/
theorem Sound.isOpen_argumentAfter (h : s.Sound) (hstaged : s.staged = {}) {a : TemplateArgument}
    (ha : a ∈ s.arguments.values) (hclosed : s.isOpen a = false) :
    s.resolved.isOpen (s.argumentAfter a) = false := by
  rw [isOpen] at hclosed
  split at hclosed
  · cases hclosed
  · next id hid =>
    have hfind := Table.find?_of_mem_values h.arguments_nodup h.argumentId ha
    have hkept : s.resolved.arguments.find? a.id = some a := by
      rw [resolved_eq h hstaged]
      refine Table.find?_writeAll_of_kept hfind fun w _ _ => ?_
      simp [changeArgument, hid]
    obtain ⟨r, hr⟩ := Table.exists_find?
      (h.argumentReference _ (Table.mem_entries_of_find? hfind) id hid)
    obtain ⟨r', hr', hsame, -⟩ := h.find?_resolved hstaged (h.find?_created_shared hstaged hr)
    simp only [hr, Option.map_some, Option.getD_some] at hclosed
    -- the reference was resolved before, so the pass has not touched it
    obtain rfl := hsame.resolve_right fun hnone => by
      rw [r.needsResolution_iff.2 hnone.1] at hclosed
      cases hclosed
    simp only [argumentAfter, hkept, isOpen, hid, hr', Option.map_some, Option.getD_some, hclosed]

section Arguments

variable (h : s.Sound) (hstaged : s.staged = {}) {done : List (TemplateArgument × ReferenceId)}
  (hdone : done.map Prod.fst = s.unresolvedArguments) (ht : Sharing.Tracks s s.shared done)

include h hstaged hdone ht

theorem find?_arguments_resolved {p : TemplateArgument × ReferenceId} (hp : p ∈ done) :
    s.resolved.arguments.find? p.1.id = some (linked p) := by
  have hmem : ∀ q ∈ done, s.arguments.find? q.1.id = some q.1 := fun q hq =>
    (h.find?_unresolvedArgument (hdone ▸ List.mem_map_of_mem hq)).1
  rw [resolved_eq h hstaged]
  rcases ht.assigned p hp with hsome | ⟨hnone, hlink⟩
  · have hkept : linked p = p.1 := by rw [linked, ← hsome]
    rw [hkept]
    refine Table.find?_writeAll_of_kept (hmem p hp) fun w _ _ => ?_
    simp [changeArgument, hsome]
  · have hkey : p.1.id ∈ (⟨s.shared.links⟩ : Table ArgumentId ReferenceId).keys :=
      List.mem_map_of_mem hlink
    obtain ⟨id, hid⟩ := Table.exists_find? hkey
    have hfind : (s.arguments.writeAll changeArgument s.shared.links).1.find? p.1.id =
        some { p.1 with reference := some id } :=
      Table.find?_writeAll_of_find? hid (hmem p hp)
        (by simp [changeArgument, hnone]) fun _ => by simp [changeArgument]
    -- every link of the argument is to the reference it has got
    obtain ⟨q, hq, -, heq⟩ := ht.links _ (Table.mem_entries_of_find? hid)
    obtain ⟨hqid, rfl⟩ := Prod.mk.inj heq
    have hfst : q.1 = p.1 := by
      have hqfind := hmem q hq
      rw [← hqid, hmem p hp] at hqfind
      exact (Option.some.inj hqfind).symm
    have hnodup : (done.map Prod.fst).Nodup := by
      rw [hdone]
      exact (Table.values_nodup h.arguments_nodup h.argumentId).filter _
    obtain rfl : q = p := List.inj_on_of_nodup_map hnodup hq hp hfst
    exact hfind

/-- **What the pass leaves of the template arguments**, in the same order. -/
theorem unresolvedArguments_resolved : s.resolved.unresolvedArguments =
    (done.filter fun p => s.leavesOpen p.2).map linked := by
  have hvalues : s.resolved.arguments.values = s.arguments.values.map s.argumentAfter := by
    refine Table.values_of_keys h.arguments_nodup ?_ h.argumentId
    rw [resolved_eq h hstaged]
    exact Table.keys_writeAll _ _
  have hlinked : ∀ p ∈ done, s.argumentAfter p.1 = linked p := fun p hp => by
    rw [argumentAfter, find?_arguments_resolved h hstaged hdone ht hp, Option.getD_some]
  -- the others have the reference that they were given, so it decides
  have hleft : ∀ p ∈ done, s.resolved.isOpen (s.argumentAfter p.1) = s.leavesOpen p.2 := by
    intro p hp
    obtain ⟨-, -, -, r, hr, -⟩ := ht.exists_first ((ht.outcomes _).2 (List.mem_map_of_mem hp))
    obtain ⟨r', hr', -⟩ := h.find?_resolved hstaged hr
    simp only [hlinked p hp, isOpen, linked, leavesOpen, hr', Option.map_some, Option.getD_some,
      Option.any_some]
  calc s.resolved.unresolvedArguments
      = (s.arguments.values.map s.argumentAfter).filter s.resolved.isOpen := by rw [← hvalues]; rfl
    _ = (s.arguments.values.filter fun a => s.resolved.isOpen (s.argumentAfter a)).map
          s.argumentAfter := by rw [List.filter_map]; rfl
    _ = (s.unresolvedArguments.filter fun a => s.resolved.isOpen (s.argumentAfter a)).map
          s.argumentAfter := by
        change _ = ((s.arguments.values.filter s.isOpen).filter _).map s.argumentAfter
        rw [List.filter_filter]
        congr 1
        refine List.filter_congr fun a ha => ?_
        cases hopen : s.isOpen a with
        | true => rw [Bool.and_true]
        | false => rw [h.isOpen_argumentAfter hstaged ha hopen, Bool.and_false]
    _ = (done.filter fun p => s.resolved.isOpen (s.argumentAfter p.1)).map
          fun p => s.argumentAfter p.1 := by
        rw [← hdone, List.filter_map, List.map_map]
        rfl
    _ = (done.filter fun p => s.leavesOpen p.2).map linked := by
        rw [List.filter_congr hleft]
        exact List.map_congr_left fun p hp => hlinked p (List.mem_filter.1 hp).1

omit h hstaged hdone ht in
theorem distinctBy_linked (ps : List (TemplateArgument × ReferenceId)) :
    distinctBy (·.reference) [] (ps.map linked) = (distinctBy Prod.snd [] ps).map linked := by
  exact distinctBy_map (·.reference) linked Prod.snd (fun _ _ => Option.some.inj) ps
    (fun _ _ => rfl) []

/-- Nothing was found for the first argument with a reference that the pass leaves. -/
theorem resolution?_of_left_argument {a : TemplateArgument}
    (ha : a ∈ distinctBy (·.reference) [] s.resolved.unresolvedArguments) :
    ∃ id r, a.reference = some id ∧ s.resolved.references.find? id = some r ∧
      s.resolution? r.typeString (s.ownerScope a.owner).1 = none := by
  have hfilter := distinctBy_filter Prod.snd s.leavesOpen done [] [] (by simp)
  rw [unresolvedArguments_resolved h hstaged hdone ht, distinctBy_linked, hfilter,
    List.mem_map] at ha
  obtain ⟨p, hp, rfl⟩ := ha
  obtain ⟨hp, hopen⟩ := List.mem_filter.1 hp
  obtain ⟨r, hr, hout⟩ := ht.first p hp
  obtain ⟨hfind, hnone, hnot⟩ := h.left_open hstaged hr hopen
  refine ⟨p.2, r, rfl, hfind, ?_⟩
  by_contra hfound
  obtain ⟨found, hfound⟩ := Option.ne_none_iff_exists'.1 hfound
  have hfound' : s.resolution? r.typeString (s.ownerScope p.1.owner).1 = some found := hfound
  rw [hfound'] at hout
  rcases ht.resolved p.2 found hout with ⟨r', hr', hsome⟩ | hmem
  · obtain rfl := Option.some.inj (hr.symm.trans hr')
    rw [hnone] at hsome
    cases hsome
  · exact hnot found (List.mem_append_right _ hmem)

end Arguments

/-- Nothing was found for a base that the pass leaves. -/
theorem Sound.left_base (h : s.Sound) (hstaged : s.staged = {}) {b : BaseEdge}
    (hb : b ∈ s.resolved.unresolvedBases) : b ∈ s.unresolvedBases ∧ s.baseTarget? b = none := by
  obtain ⟨hfind, hnone⟩ := (h.resolved hstaged).find?_unresolvedBase hb
  have hbases : s.resolved.bases = (s.bases.writeAll changeBase s.foundBases).1 := by
    rw [resolved_eq h hstaged]
  rw [hbases] at hfind
  have hkey : b.id ∈ s.bases.keys := by
    rw [← Table.keys_writeAll s.bases s.foundBases]
    exact Table.mem_keys_of_find? hfind
  obtain ⟨b₀, hb₀⟩ := Table.exists_find? hkey
  -- a base that the pass changes has a target afterwards
  have hnot : ∀ t, b₀.target = none → (b.id, t) ∉ s.foundBases := by
    intro t hopen hmem
    have hkey : b.id ∈ (⟨s.foundBases⟩ : Table BaseId TypeId).keys := List.mem_map_of_mem hmem
    obtain ⟨t, ht⟩ := Table.exists_find? hkey
    have hfind' : (s.bases.writeAll changeBase s.foundBases).1.find? b.id =
        some { b₀ with target := some t } :=
      Table.find?_writeAll_of_find? ht hb₀ (by simp [changeBase, hopen])
        fun _ => by simp [changeBase]
    rw [hfind', Option.some.injEq] at hfind
    rw [← hfind] at hnone
    cases hnone
  have hkept : (s.bases.writeAll changeBase s.foundBases).1.find? b.id = some b₀ := by
    refine Table.find?_writeAll_of_kept hb₀ fun w hw heq => ?_
    rw [changeBase, if_neg]
    exact fun hopen => hnot w.2 (Option.isNone_iff_eq_none.1 hopen) (heq ▸ hw)
  obtain rfl := Option.some.inj (hfind.symm.trans hkept)
  have hmem : b ∈ s.unresolvedBases :=
    List.mem_filter.2 ⟨Table.mem_values_of_find? hb₀, Option.isNone_iff_eq_none.2 hnone⟩
  refine ⟨hmem, ?_⟩
  by_contra htarget
  obtain ⟨t, ht⟩ := Option.ne_none_iff_exists'.1 htarget
  exact hnot t hnone (List.mem_filterMap.2 ⟨b, hmem, by rw [ht, Option.map_some]⟩)

/-! ## A pass that finds every template argument linked -/

section Linked

variable (h : s.Sound) (hstaged : s.staged = {})
  (hlinked : ∀ a ∈ s.unresolvedArguments, a.reference ≠ none)

include hlinked

theorem shared_of_linked : s.shared.store = s ∧ s.shared.links = [] ∧ s.shared.created = 0 :=
  Sharing.run_of_linked _ hlinked _

include h hstaged

theorem shared_resolutions_eq_nil : s.shared.resolutions = [] ↔
    ∀ a ∈ distinctBy (·.reference) [] s.unresolvedArguments, ∀ id r, a.reference = some id →
      s.references.find? id = some r →
        s.resolution? r.typeString (s.ownerScope a.owner).1 = none := by
  obtain ⟨done, hdone, ht⟩ := h.exists_tracks hstaged
  have hall : ∀ p ∈ done, p.1.reference = some p.2 := fun p hp =>
    (ht.assigned p hp).resolve_right fun hnone =>
      hlinked p.1 (hdone ▸ List.mem_map_of_mem hp) hnone.1
  -- every argument keeps the reference that it has, so the arguments are what was tracked
  have hargs : s.unresolvedArguments = done.map linked := by
    rw [← hdone]
    exact List.map_congr_left fun p hp => by rw [linked, ← hall p hp]
  have hcreated : s.shared.store.created = s.references := by
    rw [(shared_of_linked hlinked).1, created, hstaged]
    rfl
  rw [hargs, distinctBy_linked]
  constructor
  · intro hnil a ha id r hid hr
    obtain ⟨p, hp, rfl⟩ := List.mem_map.1 ha
    obtain rfl := Option.some.inj hid
    obtain ⟨r', hr', hout⟩ := ht.first p hp
    obtain rfl := Option.some.inj ((hcreated ▸ hr').symm.trans hr)
    have hmem : p.1 ∈ s.unresolvedArguments :=
      hdone ▸ List.mem_map_of_mem (mem_of_mem_distinctBy hp).1
    obtain ⟨r'', hr'', hnone⟩ :=
      (h.find?_unresolvedArgument hmem).2 p.2 (hall p (mem_of_mem_distinctBy hp).1)
    by_contra hfound
    obtain ⟨found, hfound⟩ := Option.ne_none_iff_exists'.1 hfound
    have hfound' : s.resolution? r'.typeString (s.ownerScope p.1.owner).1 = some found := hfound
    rw [hfound'] at hout
    rcases ht.resolved p.2 found hout with ⟨r₀, hr₀, hsome⟩ | hmem
    · rw [hcreated, hr''] at hr₀
      rw [← Option.some.inj hr₀, hnone] at hsome
      cases hsome
    · rw [hnil] at hmem
      cases hmem
  · intro hnone
    refine List.eq_nil_iff_forall_not_mem.2 fun w hw => ?_
    obtain ⟨hout, -⟩ := ht.resolutions w hw
    obtain ⟨p, hp, hpw, r, hr, hfirst⟩ := ht.exists_first (Option.isSome_of_eq_some hout)
    have hp' := hnone (linked p) (List.mem_map_of_mem hp) w.1 r (hpw ▸ rfl) (hcreated ▸ hr)
    have hmeans : s.resolution? r.typeString (s.ownerScope p.1.owner).1 = none := hp'
    rw [hout, hmeans] at hfirst
    cases hfirst

theorem changes_planResolution : s.planResolution.store.changes = {
    referencesResolved :=
      (s.references.writeAll changeReference (s.foundReferences ++ s.shared.resolutions)).2
    basesResolved := (s.bases.writeAll changeBase s.foundBases).2 } := by
  have hlinks := (shared_of_linked hlinked).2.1
  have hreferences : s.shared.store.staged.references = [] := by
    rw [(shared_of_linked hlinked).1, hstaged]
  rw [store_planResolution h hstaged, hlinks, hreferences]
  rfl

/-- The pass changes something exactly if it finds something. -/
theorem changes_isEmpty_iff : s.planResolution.store.changes.isEmpty = true ↔
    s.foundReferences = [] ∧ s.shared.resolutions = [] ∧ s.foundBases = [] := by
  have hreferences : (s.references.writeAll changeReference
      (s.foundReferences ++ s.shared.resolutions)).2 = 0 ↔
        s.foundReferences ++ s.shared.resolutions = [] := by
    rw [Table.writeAll_eq_zero]
    refine ⟨fun hnone => List.eq_nil_iff_forall_not_mem.2 fun w hw => ?_,
      fun hnil => by simp [hnil]⟩
    obtain ⟨-, r, hr, hopen⟩ := h.mem_staged_resolutions hstaged hw
    have hw := hnone w hw
    rw [hr, Option.bind_some, changeReference, if_pos (r.needsResolution_iff.2 hopen)] at hw
    cases hw
  have hbases : (s.bases.writeAll changeBase s.foundBases).2 = 0 ↔ s.foundBases = [] := by
    rw [Table.writeAll_eq_zero]
    refine ⟨fun hnone => List.eq_nil_iff_forall_not_mem.2 fun w hw => ?_,
      fun hnil => by simp [hnil]⟩
    obtain ⟨b, hb, heq⟩ := List.mem_filterMap.1 hw
    obtain ⟨t, -, rfl⟩ := Option.map_eq_some_iff.1 heq
    obtain ⟨hfind, hopen⟩ := h.find?_unresolvedBase hb
    have hw := hnone _ hw
    rw [hfind, Option.bind_some, changeBase, if_pos (Option.isNone_iff_eq_none.2 hopen)] at hw
    cases hw
  rw [changes_planResolution h hstaged hlinked, Changes.isEmpty, beq_iff_eq, Changes.total]
  simp only [Nat.add_zero, Nat.add_eq_zero_iff, hreferences, hbases, List.append_eq_nil_iff,
    and_assoc]

theorem resolved_of_isEmpty (hempty : s.planResolution.store.changes.isEmpty = true) :
    s.resolved = s := by
  obtain ⟨hreferences, hresolutions, hbases⟩ := (changes_isEmpty_iff h hstaged hlinked).1 hempty
  obtain ⟨hstore, hlinks, -⟩ := shared_of_linked hlinked
  have hcreated : s.created = s.references := by
    rw [created, hstaged]
    rfl
  rw [resolved_eq h hstaged, hreferences, hresolutions, hbases, hlinks, hstore, hcreated]
  rfl

end Linked

/-! ## The second run -/

/-- The pass from `s` to `s'` has left something that another pass resolves: one of its chains meets
a typedef that the pass has only just resolved. -/
inductive Late (s s' : Store) : Prop
  | reference (u : Unresolved) (hu : u ∈ s'.unresolvedReferences)
      (hlate : s.Awaits s' u.reference.typeString u.scope)
  /-- The first argument that has the reference decides in which scope it is resolved. -/
  | argument (a : TemplateArgument) (ha : a ∈ distinctBy (·.reference) [] s'.unresolvedArguments)
      (id : ReferenceId) (r : Reference) (hid : a.reference = some id)
      (hr : s'.references.find? id = some r)
      (hlate : s.Awaits s' r.typeString (s'.ownerScope a.owner).1)
  /-- A base names neither a primitive nor the type that declares it. -/
  | base (b : BaseEdge) (hb : b ∈ s'.unresolvedBases) (t : TypeId)
      (ht : s'.resolution? b.typeString (s'.ownerScope b.owner).1 = some (.type t))
      (hne : t ≠ b.owner) (hlate : s.Awaits s' b.typeString (s'.ownerScope b.owner).1)

section SecondRun

variable (h : s.Sound) (hstaged : s.staged = {})

include h hstaged

/-- After a pass every unresolved template argument has a reference. -/
theorem linked_resolved : ∀ a ∈ s.resolved.unresolvedArguments, a.reference ≠ none := by
  obtain ⟨done, hdone, ht⟩ := h.exists_tracks hstaged
  intro a ha
  rw [unresolvedArguments_resolved h hstaged hdone ht] at ha
  obtain ⟨p, -, rfl⟩ := List.mem_map.1 ha
  exact Option.some_ne_none _

theorem ownerScope_resolved (id : TypeId) : s.resolved.ownerScope id = s.ownerScope id := by
  rw [ownerScope, ownerScope, (h.further_resolved hstaged).types]

/-- **A second pass finds something exactly if the first one was late.** -/
theorem found_resolved_iff : s.Late s.resolved ↔ ¬(s.resolved.foundReferences = [] ∧
    s.resolved.shared.resolutions = [] ∧ s.resolved.foundBases = []) := by
  have hfurther := h.further_resolved hstaged
  have hsound := h.resolved hstaged
  obtain ⟨done, hdone, ht⟩ := h.exists_tracks hstaged
  constructor
  · rintro (⟨u, hu, hlate⟩ | ⟨a, ha, id, r, hid, hr, hlate⟩ | ⟨b, hb, t, ht, hne, -⟩)
      ⟨hreferences, hresolutions, hbases⟩
    · have hfound := (hfurther.resolution?_ne_none_iff (h.resolution?_of_left hstaged hu)).2 hlate
      exact hfound (Option.map_eq_none_iff.1 (List.filterMap_eq_nil_iff.1 hreferences u hu))
    · obtain ⟨id', r', hid', hr', hnone⟩ := resolution?_of_left_argument h hstaged hdone ht ha
      obtain rfl := Option.some.inj (hid.symm.trans hid')
      obtain rfl := Option.some.inj (hr.symm.trans hr')
      rw [← ownerScope_resolved h hstaged] at hnone
      refine (hfurther.resolution?_ne_none_iff hnone).2 hlate ?_
      exact (shared_resolutions_eq_nil hsound rfl (linked_resolved h hstaged)).1 hresolutions
        a ha id r hid hr
    · have hnone := Option.map_eq_none_iff.1 (List.filterMap_eq_nil_iff.1 hbases b hb)
      rw [baseTarget?_eq_some.2 ⟨ht, hne⟩] at hnone
      cases hnone
  · intro hfound
    by_contra hlate
    refine hfound ⟨?_, ?_, ?_⟩
    · refine List.filterMap_eq_nil_iff.2 fun u hu => Option.map_eq_none_iff.2 ?_
      by_contra hsome
      exact hlate (.reference u hu
        ((hfurther.resolution?_ne_none_iff (h.resolution?_of_left hstaged hu)).1 hsome))
    · refine (shared_resolutions_eq_nil hsound rfl (linked_resolved h hstaged)).2
        fun a ha id r hid hr => ?_
      obtain ⟨id', r', hid', hr', hnone⟩ := resolution?_of_left_argument h hstaged hdone ht ha
      obtain rfl := Option.some.inj (hid.symm.trans hid')
      obtain rfl := Option.some.inj (hr.symm.trans hr')
      rw [← ownerScope_resolved h hstaged] at hnone
      by_contra hsome
      exact hlate (.argument a ha id r hid hr ((hfurther.resolution?_ne_none_iff hnone).1 hsome))
    · refine List.filterMap_eq_nil_iff.2 fun b hb => Option.map_eq_none_iff.2 ?_
      by_contra hsome
      obtain ⟨t, htarget⟩ := Option.ne_none_iff_exists'.1 hsome
      obtain ⟨hmeans, hne⟩ := baseTarget?_eq_some.1 htarget
      -- the first pass would have found the same type, had the base not awaited it
      refine hlate (.base b hb t hmeans hne ?_)
      by_contra hawaits
      obtain ⟨-, hnone⟩ := h.left_base hstaged hb
      rw [hfurther.resolution?_eq hawaits, ownerScope_resolved h hstaged] at hmeans
      rw [baseTarget?_eq_some.2 ⟨hmeans, hne⟩] at hnone
      cases hnone

/-- A second pass keeps what the first one has resolved. -/
theorem kept_resolved : s.resolved.resolved.arguments = s.resolved.arguments ∧
    (∀ id r, s.resolved.references.find? id = some r → r.resolution ≠ none →
      s.resolved.resolved.references.find? id = some r) ∧
    ∀ id b, s.resolved.bases.find? id = some b → b.target ≠ none →
      s.resolved.resolved.bases.find? id = some b := by
  have hsound := h.resolved hstaged
  have hlinks := (shared_of_linked (linked_resolved h hstaged)).2.1
  refine ⟨?_, fun id r hr hsome => ?_, fun id b hb hsome => ?_⟩
  · rw [resolved_eq hsound rfl, hlinks]
    rfl
  · obtain ⟨r', hr', hkept, -⟩ := hsound.find?_resolved rfl (hsound.find?_created_shared rfl hr)
    rw [hr', hkept.resolve_right fun hnew => hsome hnew.1]
  · rw [resolved_eq hsound rfl]
    refine Table.find?_writeAll_of_kept hb fun t _ _ => ?_
    rw [changeBase, if_neg]
    exact fun hnone => hsome (Option.isNone_iff_eq_none.1 hnone)

end SecondRun

/-- **A second pass resolves what the first one was late for, and nothing else.** It creates no
reference, links no template argument and keeps what has been resolved. It changes nothing at all
exactly if the first pass was not late for anything. -/
theorem second_run (h : s.Reachable) (hstaged : s.staged = {}) (k l : Nat) :
    (∃ report, (s.runResolution k).outcome = .ok report) ∧
    ∃ report, ((s.runResolution k).store.runResolution l).outcome = .ok report ∧
      report.referencesCreated = 0 ∧ report.changes.referencesCreated = 0 ∧
      report.changes.argumentsLinked = 0 ∧
      ((s.runResolution k).store.runResolution l).store.arguments =
        (s.runResolution k).store.arguments ∧
      (∀ id r, (s.runResolution k).store.references.find? id = some r → r.resolution ≠ none →
        ((s.runResolution k).store.runResolution l).store.references.find? id = some r) ∧
      (∀ id b, (s.runResolution k).store.bases.find? id = some b → b.target ≠ none →
        ((s.runResolution k).store.runResolution l).store.bases.find? id = some b) ∧
      (report.changes.isEmpty = true ↔ ¬s.Late (s.runResolution k).store) ∧
      (report.changes.isEmpty = true →
        ((s.runResolution k).store.runResolution l).store = (s.runResolution k).store) := by
  have hsound := h.sound.resolved hstaged
  have hlinked := linked_resolved h.sound hstaged
  obtain ⟨hfirst, report₁, hok₁, -, -⟩ := run_resolved h.sound hstaged k
  obtain ⟨hsecond, report, hok, hcreated, hchanges⟩ := run_resolved hsound rfl l
  rw [hfirst, hsecond]
  obtain ⟨harguments, hreferences, hbases⟩ := kept_resolved h.sound hstaged
  have hplan := changes_planResolution hsound rfl hlinked
  refine ⟨⟨report₁, hok₁⟩, report, hok, ?_, ?_, ?_, harguments, hreferences, hbases, ?_, ?_⟩
  · exact hcreated.trans (shared_of_linked hlinked).2.2
  · rw [hchanges, hplan]
  · rw [hchanges, hplan]
  · rw [hchanges, changes_isEmpty_iff hsound rfl hlinked, found_resolved_iff h.sound hstaged,
      not_not]
  · rw [hchanges]
    exact resolved_of_isEmpty hsound rfl hlinked

/-- A typedef whose target only the bare name finds, and a typedef of it. -/
def twoTypedefs : Store :=
  [.addType { name := "Foo", space := "ns", kind := .struct }, Operation.addTypedef "" "B" "Foo",
    Operation.addTypedef "" "A" "B"].foldl perform empty

theorem reachable_twoTypedefs : twoTypedefs.Reachable := leads_foldl _ _

theorem second_run_twoTypedefs : twoTypedefs.staged = {} ∧
    twoTypedefs.Late (twoTypedefs.runResolution 25).store ∧
    ∃ report, ((twoTypedefs.runResolution 25).store.runResolution 25).outcome = .ok report ∧
      report.referencesCreated = 0 ∧ report.changes.isEmpty = false := by
  obtain ⟨-, report, hok, hcreated, -, -, -, -, -, hlate, -⟩ :=
    second_run reachable_twoTypedefs rfl 25 25
  have hrun : ((twoTypedefs.runResolution 25).store.runResolution 25).outcome.toOption.map
      (·.changes.isEmpty) = some false := by decide +kernel
  rw [hok] at hrun
  have hempty : report.changes.isEmpty = false := Option.some.inj hrun
  have hlate' : twoTypedefs.Late (twoTypedefs.runResolution 25).store := by
    by_contra hnot
    rw [hlate.2 hnot] at hempty
    cases hempty
  exact ⟨rfl, hlate', report, hok, hcreated, hempty⟩

/-- A second pass is not always idle: the target of the typedef `A` is resolved by it. -/
theorem second_run_not_idle : twoTypedefs.Reachable ∧ twoTypedefs.staged = {} ∧
    (twoTypedefs.runResolution 25).outcome.isOk = true ∧
    (((twoTypedefs.runResolution 25).store.references.find? ⟨4⟩).bind (·.resolution)) = none ∧
    ((twoTypedefs.runResolution 25).store.runResolution 25).outcome.toOption.map
      (fun report => (report.changes.isEmpty, report.changes.referencesResolved)) =
        some (false, 1) ∧
    ((((twoTypedefs.runResolution 25).store.runResolution 25).store.references.find? ⟨4⟩).bind
      (·.resolution)) = some (.type ⟨1⟩) := by
  refine ⟨reachable_twoTypedefs, rfl, ?_, ?_, ?_, ?_⟩ <;> decide +kernel

end Store

end DeclGraph
