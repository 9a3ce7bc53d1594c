import Mathlib.Data.List.Find
import DeclGraph.Proofs.SecondRun

/-!
# What becomes of references in a resolution pass

A reference of a member or typedef is resolved to what its type string means where it is declared,
and a reference of template arguments to what it was resolved to for the first of them. Neither
gets in the way of the other as long as no template argument has the reference of a member or
typedef.

* `Sharing.Assigns`: what the references that template arguments get have to do with type strings.
* `Store.Separate`: template arguments have references of their own.
* `Store.Sound.resolution_listed`, `Store.Sound.resolution_assigned`: what the pass makes of
  references.
* `Store.argument_meaning`: where no template argument was linked before, **each gets what its type
  string means for the first argument with that type string.**
-/

namespace DeclGraph

namespace Sharing

/-- What holds of the references and links of a pass that has given the arguments in `done` their
references. -/
structure Assigns (h : Sharing) (done : List (TemplateArgument × ReferenceId)) : Prop where
  /-- An argument without a reference gets that of its type string. -/
  byString : ∀ p ∈ done, p.1.reference = none → h.byString.find? p.1.typeString = some p.2
  /-- The reference of a type string was there, or it has been created for that type string. -/
  known : ∀ typeString id, h.byString.find? typeString = some id →
    (∃ p ∈ done, p.1.reference = some id) ∨
      ∃ r ∈ h.store.staged.references, r.id = id ∧ r.typeString = typeString
  /-- What is found for a type string is written into the reference that is created for it. -/
  created : ∀ r ∈ h.store.staged.references, h.outcomes.find? r.id = some r.resolution
  links : h.links = done.flatMap fun p => linkOf p.1 p.2
  count : h.created = h.store.staged.references.length

variable {s : Store} {h : Sharing} {done : List (TemplateArgument × ReferenceId)}

theorem assigns_start (hstaged : s.staged = {}) : Assigns { store := s } [] where
  byString := by simp
  known := by simp [Table.find?]
  created := by simp [hstaged]
  links := rfl
  count := by simp [hstaged]

theorem flatMap_linkOf_append (p : TemplateArgument × ReferenceId) :
    (done ++ [p]).flatMap (fun p => linkOf p.1 p.2) =
      (done.flatMap fun p => linkOf p.1 p.2) ++ linkOf p.1 p.2 := by
  rw [List.flatMap_append, List.flatMap_cons, List.flatMap_nil, List.append_nil]

theorem Assigns.withReference (ha : Assigns h done) {a : TemplateArgument} {id : ReferenceId}
    (hlinked : a.reference = some id) (scope : String) :
    Assigns (h.withReference a scope id).1 (done ++ [(a, id)]) := by
  have hlinks : h.links = (done ++ [(a, id)]).flatMap fun p => linkOf p.1 p.2 := by
    rw [flatMap_linkOf_append, ← ha.links, linkOf, hlinked]
    exact (List.append_nil _).symm
  have hmem : ∀ id', (∃ p ∈ done, p.1.reference = some id') →
      ∃ p ∈ done ++ [(a, id)], p.1.reference = some id' := by
    rintro id' ⟨p, hp, hid⟩
    exact ⟨p, List.mem_append_left _ hp, hid⟩
  have hown : ∃ p ∈ done ++ [(a, id)], p.1.reference = some id :=
    ⟨(a, id), List.mem_append_right _ List.mem_cons_self, hlinked⟩
  rw [Sharing.withReference]
  cases hid : h.outcomes.contains id with
  | true =>
    simp only [if_true]
    exact {
      ha with
      byString := by
        refine List.forall_mem_append.2 ⟨ha.byString, fun p hp hnone => ?_⟩
        obtain rfl := List.mem_singleton.1 hp
        rw [hlinked] at hnone
        cases hnone
      known := fun typeString id' hfind => (ha.known typeString id' hfind).imp_left (hmem id')
      links := hlinks }
  | false =>
    simp only [Bool.false_eq_true, if_false]
    -- a type string keeps the reference that it has
    have hkept : ∀ typeString id', h.byString.find? typeString = some id' →
        (if h.byString.contains a.typeString then h.byString
          else h.byString.insert a.typeString id).find? typeString = some id' := by
      intro typeString id' hfind
      split
      · exact hfind
      · next hnew =>
        rw [Table.find?_insert, if_neg, hfind]
        rintro rfl
        exact hnew (Option.isSome_of_eq_some hfind)
    exact {
      byString := by
        refine List.forall_mem_append.2 ⟨fun p hp hnone => ?_, fun p hp hnone => ?_⟩
        · exact hkept _ _ (ha.byString p hp hnone)
        · obtain rfl := List.mem_singleton.1 hp
          rw [hlinked] at hnone
          cases hnone
      known := by
        intro typeString id' hfind
        split at hfind
        · exact (ha.known typeString id' hfind).imp_left (hmem id')
        · rw [Table.find?_insert] at hfind
          split at hfind
          · exact .inl (Option.some.inj hfind ▸ hown)
          · exact (ha.known typeString id' hfind).imp_left (hmem id')
      created := by
        intro r hr
        have hout := ha.created r hr
        rw [Table.find?_insert, if_neg, hout]
        rintro rfl
        rw [Table.contains, hout] at hid
        cases hid
      links := hlinks
      count := ha.count }

theorem resolution_createdReference (typeString : String) (found : Option Resolution) :
    (createdReference typeString found).resolution = found := by
  cases found with
  | none => rfl
  | some found => exact Reference.resolution_apply rfl found

theorem Assigns.withoutReference (ht : Tracks s h done) (ha : Assigns h done)
    {a : TemplateArgument} (hopen : a.reference = none) (scope : String) :
    Assigns (h.withoutReference a scope).1 (done ++ [(a, h.referenceOf a)]) := by
  have hlink : ∀ id, h.links ++ [(a.id, id)] =
      (done ++ [(a, id)]).flatMap fun p => linkOf p.1 p.2 := by
    intro id
    rw [flatMap_linkOf_append, ← ha.links, linkOf, hopen]
    rfl
  have hmem : ∀ id id', (∃ p ∈ done, p.1.reference = some id') →
      ∃ p ∈ done ++ [(a, id)], p.1.reference = some id' := by
    rintro id id' ⟨p, hp, hid⟩
    exact ⟨p, List.mem_append_left _ hp, hid⟩
  rw [Sharing.withoutReference, referenceOf_of_none hopen]
  cases hid : h.byString.find? a.typeString with
  | some id =>
    rw [Option.getD_some]
    exact {
      ha with
      byString := by
        refine List.forall_mem_append.2 ⟨ha.byString, fun p hp _ => ?_⟩
        obtain rfl := List.mem_singleton.1 hp
        exact hid
      known := fun typeString id' hfind => (ha.known typeString id' hfind).imp_left (hmem id id')
      links := hlink id }
  | none =>
    rw [Option.getD_none]
    dsimp only [Store.stageReference]
    generalize (h.store.resolveNoting a.typeString scope).value = found
    rw [← createdReference]
    generalize hr : createdReference a.typeString found = r
    have htext : r.typeString = a.typeString := hr ▸ typeString_createdReference _ _
    have hfound : r.resolution = found := hr ▸ resolution_createdReference _ _
    exact {
      byString := by
        refine List.forall_mem_append.2 ⟨fun p hp hnone => ?_, fun p hp _ => ?_⟩
        · have hfind := ha.byString p hp hnone
          rw [Table.find?_insert, if_neg, hfind]
          intro heq
          rw [heq, hid] at hfind
          cases hfind
        · obtain rfl := List.mem_singleton.1 hp
          rw [Table.find?_insert, if_pos rfl]
      known := by
        intro typeString id' hfind
        rw [Table.find?_insert] at hfind
        split at hfind
        · next heq =>
          refine .inr ⟨{ r with id := ⟨h.store.nextId⟩ }, ?_, Option.some.inj hfind, ?_⟩
          · exact List.mem_append_right _ List.mem_cons_self
          · exact htext.trans heq.symm
        · rcases ha.known typeString id' hfind with hlinked | ⟨r', hr', hboth⟩
          · exact .inl (hmem _ id' hlinked)
          · exact .inr ⟨r', List.mem_append_left _ hr', hboth⟩
      created := by
        refine List.forall_mem_append.2 ⟨fun r' hr' => ?_, fun r' hr' => ?_⟩
        · -- the number of the new reference is that of no other
          have hne : r'.id ≠ ⟨h.store.nextId⟩ := by
            intro heq
            have hknown : h.store.created.find? r'.id = some r' :=
              ht.sound.find?_created.2 (.inr ⟨hr', rfl⟩)
            rw [heq, ht.sound.next_not_mem_created] at hknown
            cases hknown
          rw [Table.find?_insert, if_neg hne]
          exact ha.created r' hr'
        · obtain rfl := List.mem_singleton.1 hr'
          rw [Table.find?_insert, if_pos rfl, ← hfound]
          rfl
      links := hlink _
      count := by
        rw [List.length_append, ha.count]
        rfl }

/-- **One argument**: its reference is that of its type string, or the one that it had. -/
theorem Assigns.step (ht : Tracks s h done) (ha : Assigns h done) (a : TemplateArgument) :
    Assigns (h.step a).1 (done ++ [(a, h.referenceOf a)]) := by
  rw [Sharing.step]
  cases hr : a.reference with
  | some id =>
    rw [referenceOf_of_some hr]
    exact ha.withReference hr _
  | none => exact ha.withoutReference ht hr _

theorem assigns_run (hs : s.Sound) (as : List TemplateArgument)
    (has : ∀ a ∈ as, ∀ id, a.reference = some id →
      ∃ r, s.references.find? id = some r ∧ r.resolution = none) :
    ∀ {h : Sharing} {done : List (TemplateArgument × ReferenceId)}, Tracks s h done →
      Assigns h done → Assigns (h.run as).1 (done ++ h.assign as) := by
  induction as with
  | nil => exact fun _ ha => by simpa [Sharing.run, assign] using ha
  | cons a as ih =>
    intro h done ht ha
    rw [List.forall_mem_cons] at has
    have hrest := ih has.2 (ht.step hs a has.1) (ha.step ht a)
    rw [List.append_assoc] at hrest
    exact hrest

end Sharing

namespace Store

variable {s : Store}

/-! ## References of members and typedefs -/

/-- The references that members and typedefs declare. -/
def declaredIds (s : Store) : List ReferenceId :=
  s.members.values.filterMap (·.reference) ++ s.typedefs.values.map (·.target)

/-- No template argument has the reference of a member or typedef. -/
def Separate (s : Store) : Prop :=
  ∀ a ∈ s.arguments.values, ∀ id, a.reference = some id → id ∉ s.declaredIds

theorem mem_declaredIds (h : s.Sound) {id : ReferenceId} (hid : id ∈ s.declaredIds) :
    id ∈ s.references.keys := by
  rcases List.mem_append.1 hid with hid | hid
  · obtain ⟨m, hm, hreference⟩ := List.mem_filterMap.1 hid
    have hfind := Table.find?_of_mem_values h.members_nodup h.memberId hm
    exact h.memberReference _ (Table.mem_entries_of_find? hfind) id hreference
  · obtain ⟨t, ht, rfl⟩ := List.mem_map.1 hid
    have hfind := Table.find?_of_mem_values h.typedefs_nodup h.typedefId ht
    exact h.typedefTarget _ (Table.mem_entries_of_find? hfind)

theorem Sound.mem_declaredIds_of_unresolved (h : s.Sound) {u : Unresolved}
    (hu : u ∈ s.unresolvedReferences) : u.reference.id ∈ s.declaredIds := by
  have hmem := List.mem_of_mem_filter (mem_of_mem_distinctBy hu).1
  rcases List.mem_append.1 hmem with hmem | hmem
  · obtain ⟨m, hm, heq⟩ := List.mem_filterMap.1 hmem
    obtain ⟨r, hr, rfl⟩ := Option.map_eq_some_iff.1 (memberReference?_eq m ▸ heq)
    obtain ⟨id, hid, hfind⟩ := Option.bind_eq_some_iff.1 hr
    refine List.mem_append_left _ (List.mem_filterMap.2 ⟨m, hm, ?_⟩)
    exact hid.trans (congrArg some (h.referenceId _ (Table.mem_entries_of_find? hfind)).symm)
  · obtain ⟨t, ht, heq⟩ := List.mem_filterMap.1 hmem
    obtain ⟨r, hfind, rfl⟩ := Option.map_eq_some_iff.1 (typedefReference?_eq t ▸ heq)
    refine List.mem_append_right _ (List.mem_map.2 ⟨t, ht, ?_⟩)
    exact (h.referenceId _ (Table.mem_entries_of_find? hfind)).symm

theorem map_fst_assigned (s : Store) : s.assigned.map Prod.fst = s.unresolvedArguments :=
  Sharing.map_fst_assign _ _

theorem mem_unresolvedArguments_of_assigned {p : TemplateArgument × ReferenceId}
    (hp : p ∈ s.assigned) : p.1 ∈ s.unresolvedArguments := by
  rw [← map_fst_assigned]
  exact List.mem_map_of_mem hp

theorem nodup_unresolvedReferences : (s.unresolvedReferences.map (·.reference.id)).Nodup :=
  List.pairwise_map.2 (pairwise_distinctBy _ [])

section Pass

variable (h : s.Sound) (hstaged : s.staged = {})

include h hstaged

theorem Sound.assigns_shared : Sharing.Assigns s.shared s.assigned := by
  have ha := Sharing.assigns_run h s.unresolvedArguments
    (fun a ha => (h.find?_unresolvedArgument ha).2) (Sharing.tracks_start h hstaged)
    (Sharing.assigns_start hstaged)
  rwa [List.nil_append] at ha

/-- A new reference has a number that no reference has had. -/
theorem Sound.not_mem_keys_of_created {r : Reference}
    (hr : r ∈ s.shared.store.staged.references) : r.id ∉ s.references.keys := by
  have ht := h.tracks_shared hstaged
  have hnodup := ht.sound.created_nodup
  have hkeys : s.shared.store.references = s.references := by rw [ht.store]
  rw [referenceIds, hkeys] at hnodup
  intro hmem
  exact List.disjoint_of_nodup_append hnodup hmem (List.mem_map_of_mem hr)

/-- The reference that an argument gets was there for one of them, or it is new. -/
theorem Sound.origin_of_assigned {p : TemplateArgument × ReferenceId} (hp : p ∈ s.assigned) :
    (∃ a ∈ s.unresolvedArguments, a.reference = some p.2) ∨
      ∃ r ∈ s.shared.store.staged.references, r.id = p.2 := by
  have ha := h.assigns_shared hstaged
  rcases (h.tracks_shared hstaged).assigned p hp with hsome | ⟨hnone, -⟩
  · exact .inl ⟨p.1, mem_unresolvedArguments_of_assigned hp, hsome⟩
  · rcases ha.known _ _ (ha.byString p hp hnone) with ⟨q, hq, hid⟩ | ⟨r, hr, hid, -⟩
    · exact .inl ⟨q.1, mem_unresolvedArguments_of_assigned hq, hid⟩
    · exact .inr ⟨r, hr, hid⟩

/-- **Template arguments get references of their own.** -/
theorem Sound.not_declared_of_assigned (hseparate : s.Separate)
    {p : TemplateArgument × ReferenceId} (hp : p ∈ s.assigned) : p.2 ∉ s.declaredIds := by
  rcases h.origin_of_assigned hstaged hp with ⟨a, ha, hid⟩ | ⟨r, hr, hid⟩
  · exact hseparate a (List.mem_of_mem_filter ha) p.2 hid
  · intro hdeclared
    exact h.not_mem_keys_of_created hstaged hr (hid ▸ mem_declaredIds h hdeclared)

/-- If it was there, it was unresolved. -/
theorem Sound.resolution_of_assigned {p : TemplateArgument × ReferenceId} (hp : p ∈ s.assigned)
    {r : Reference} (hr : s.references.find? p.2 = some r) : r.resolution = none := by
  rcases h.origin_of_assigned hstaged hp with ⟨a, ha, hid⟩ | ⟨r', hr', hid⟩
  · obtain ⟨r', hr', hnone⟩ := (h.find?_unresolvedArgument ha).2 p.2 hid
    obtain rfl := Option.some.inj (hr.symm.trans hr')
    exact hnone
  · exact absurd (hid ▸ Table.mem_keys_of_find? hr) (h.not_mem_keys_of_created hstaged hr')

/-- What the pass stages for a reference of template arguments is what it was resolved to. -/
theorem Sound.firstWrite?_shared {p : TemplateArgument × ReferenceId} {r : Reference}
    (hr : s.shared.store.created.find? p.2 = some r) (hnone : r.resolution = none) :
    Table.firstWrite? s.shared.resolutions p.2 = s.shared.outcomeOf p.2 := by
  have ht := h.tracks_shared hstaged
  cases hfirst : Table.firstWrite? s.shared.resolutions p.2 with
  | some w =>
    have hout := (ht.resolutions _ (Table.mem_entries_of_find? hfirst)).1
    rw [Sharing.outcomeOf, hout]
    rfl
  | none =>
    cases hout : s.shared.outcomeOf p.2 with
    | none => rfl
    | some w =>
      have hfind : s.shared.outcomes.find? p.2 = some (some w) := Option.join_eq_some_iff.1 hout
      rcases ht.resolved p.2 w hfind with ⟨r', hr', hsome⟩ | hmem
      · obtain rfl := Option.some.inj (hr.symm.trans hr')
        rw [hnone] at hsome
        cases hsome
      · exact absurd (List.mem_map_of_mem hmem) (Table.find?_eq_none_iff.1 hfirst)

theorem Sound.resolution_resolved {id : ReferenceId} {r : Reference}
    (hr : s.shared.store.created.find? id = some r) :
    ∃ r', s.resolved.references.find? id = some r' ∧
      r'.resolution = r.resolution.or ((Table.firstWrite? s.foundReferences id).or
        (Table.firstWrite? s.shared.resolutions id)) ∧
      (r' = r ∨ r.resolution = none ∧ ∃ w, r' = r.apply w) := by
  rw [← created_planResolution h hstaged] at hr
  obtain ⟨r', hr', hresolution, hchanged⟩ := resolution_committed hr
  refine ⟨r', hr', ?_, hchanged⟩
  have hwrites : s.planResolution.store.staged.resolutions =
      s.foundReferences ++ s.shared.resolutions := by
    rw [store_planResolution h hstaged]
  have happend : Table.firstWrite? (s.foundReferences ++ s.shared.resolutions) id =
      (Table.firstWrite? s.foundReferences id).or (Table.firstWrite? s.shared.resolutions id) := by
    rw [Table.firstWrite?, Table.find?, List.find?_append, Option.map_or]
    rfl
  rw [hresolution, hwrites, happend]

variable (hseparate : s.Separate)

include hseparate

/-- **A reference of a member or typedef is resolved to what its type string means** where it is
declared. -/
theorem Sound.resolution_listed {u : Unresolved} (hu : u ∈ s.unresolvedReferences) :
    ∃ r, s.resolved.references.find? u.reference.id = some r ∧
      r.resolution = s.resolution? u.reference.typeString u.scope := by
  obtain ⟨hfind, hnone⟩ := h.find?_unresolved hu
  obtain ⟨r, hr, hresolution, -⟩ :=
    h.resolution_resolved hstaged (h.find?_created_shared hstaged hfind)
  refine ⟨r, hr, ?_⟩
  have hfound : Table.firstWrite? s.foundReferences u.reference.id =
      s.resolution? u.reference.typeString u.scope :=
    Table.firstWrite?_of_key (fun u : Unresolved => u.reference.id)
      (fun u => s.resolution? u.reference.typeString u.scope) nodup_unresolvedReferences hu
  -- no template argument has the reference, so nothing else is staged for it
  have hother : Table.firstWrite? s.shared.resolutions u.reference.id = none := by
    refine Table.find?_eq_none_iff.2 fun hmem => ?_
    obtain ⟨w, hw, hid⟩ := List.mem_map.1 hmem
    have ht := h.tracks_shared hstaged
    have hout := (ht.outcomes w.1).1 (Option.isSome_of_eq_some (ht.resolutions w hw).1)
    obtain ⟨p, hp, hpw⟩ := List.mem_map.1 hout
    refine h.not_declared_of_assigned hstaged hseparate hp ?_
    rw [hpw, hid]
    exact h.mem_declaredIds_of_unresolved hu
  rw [hresolution, hnone, Option.none_or, hfound, hother, Option.or_none]

/-- **A reference of template arguments is resolved to what was found for the first of them.** -/
theorem Sound.resolution_assigned {p : TemplateArgument × ReferenceId} (hp : p ∈ s.assigned) :
    ∃ r₀ r, s.shared.store.created.find? p.2 = some r₀ ∧
      s.resolved.references.find? p.2 = some r ∧ (r = r₀ ∨ r₀.resolution = none ∧
        ∃ w, r = r₀.apply w) ∧ r.resolution = s.shared.outcomeOf p.2 := by
  have ht := h.tracks_shared hstaged
  have hcontains := (ht.outcomes p.2).2 (List.mem_map_of_mem hp)
  obtain ⟨-, -, -, r₀, hr₀, -⟩ := ht.exists_first hcontains
  obtain ⟨r, hr, hresolution, hchanged⟩ := h.resolution_resolved hstaged hr₀
  refine ⟨r₀, r, hr₀, hr, hchanged, ?_⟩
  cases hold : r₀.resolution with
  | none =>
    have hother : Table.firstWrite? s.foundReferences p.2 = none := by
      refine Table.find?_eq_none_iff.2 fun hmem => ?_
      obtain ⟨w, hw, hid⟩ := List.mem_map.1 hmem
      obtain ⟨u, hu, heq⟩ := List.mem_filterMap.1 hw
      obtain ⟨x, -, rfl⟩ := Option.map_eq_some_iff.1 heq
      refine h.not_declared_of_assigned hstaged hseparate hp ?_
      rw [← hid]
      exact h.mem_declaredIds_of_unresolved hu
    rw [hresolution, hold, Option.none_or, hother, Option.none_or,
      h.firstWrite?_shared hstaged hr₀ hold]
  | some w =>
    -- the reference is new, as those that were there are unresolved
    rcases ht.sound.find?_created.1 hr₀ with hfind | ⟨hmem, hid⟩
    · have hsame : s.shared.store.references = s.references := by rw [ht.store]
      rw [hsame] at hfind
      rw [h.resolution_of_assigned hstaged hp hfind] at hold
      cases hold
    · have hout := (h.assigns_shared hstaged).created r₀ hmem
      rw [hresolution, hold, Option.some_or, Sharing.outcomeOf, ← hid, hout, hold]
      rfl

end Pass

/-! ## Stores that have only been declared -/

/-- No template argument has a reference. -/
def Unlinked (s : Store) : Prop := ∀ a ∈ s.arguments.values, a.reference = none

theorem Unlinked.declares {s' : Store} (h : s.Unlinked) (hs : s.Declares s') : s'.Unlinked := by
  induction hs with
  | refl => exact h
  | tail _ hstep ih =>
    cases hstep with
    | argument hid howner hnone => exact Table.forall_mem_values_insert ih hnone
    | _ => exact ih

theorem unlinked_of_declarations (h : empty.LeadsBy Operation.IsDeclaration s) : s.Unlinked :=
  h.keeps (fun t _ ho ht => ht.declares (t.declares_perform ho)) (fun _ ha => by cases ha)

theorem staged_of_declarations (h : empty.LeadsBy Operation.IsDeclaration s) : s.staged = {} :=
  h.keeps (P := fun t => t.staged = {})
    (fun t _ ho ht => (staged_declares (t.declares_perform ho)).trans ht) rfl

theorem Unlinked.separate (h : s.Unlinked) : s.Separate := by
  intro a ha id hid
  rw [h a ha] at hid
  cases hid

theorem Unlinked.unresolvedArguments_eq (h : s.Unlinked) :
    s.unresolvedArguments = s.arguments.values := by
  refine List.filter_eq_self.2 fun a ha => ?_
  rw [h a ha]

/-- The first template argument with the type string of `a`. -/
def bearer (s : Store) (a : TemplateArgument) : TemplateArgument :=
  (s.arguments.values.find? (·.typeString = a.typeString)).getD a

section Unlinked

variable (h : s.Sound) (hstaged : s.staged = {}) (hunlinked : s.Unlinked)

include h hstaged hunlinked

/-- All references of template arguments are new, and have the type string of the argument. -/
theorem typeString_created {p : TemplateArgument × ReferenceId} (hp : p ∈ s.assigned) :
    ∃ r, s.shared.store.created.find? p.2 = some r ∧ r.typeString = p.1.typeString := by
  have ha := h.assigns_shared hstaged
  have ht := h.tracks_shared hstaged
  have hnone : ∀ q ∈ s.assigned, q.1.reference = none := fun q hq =>
    hunlinked q.1 (List.mem_of_mem_filter (mem_unresolvedArguments_of_assigned hq))
  rcases ha.known _ _ (ha.byString p hp (hnone p hp)) with ⟨q, hq, hid⟩ | ⟨r, hr, hid, htext⟩
  · rw [hnone q hq] at hid
    cases hid
  · exact ⟨r, ht.sound.find?_created.2 (.inr ⟨hr, hid⟩), htext⟩

/-- Template arguments share a reference exactly if they have the same type string. -/
theorem assigned_eq_iff {p q : TemplateArgument × ReferenceId} (hp : p ∈ s.assigned)
    (hq : q ∈ s.assigned) : q.2 = p.2 ↔ q.1.typeString = p.1.typeString := by
  have ha := h.assigns_shared hstaged
  have hfind : ∀ q ∈ s.assigned, s.shared.byString.find? q.1.typeString = some q.2 := fun q hq =>
    ha.byString q hq
      (hunlinked q.1 (List.mem_of_mem_filter (mem_unresolvedArguments_of_assigned hq)))
  constructor
  · intro heq
    obtain ⟨r, hr, htext⟩ := typeString_created h hstaged hunlinked hp
    obtain ⟨r', hr', htext'⟩ := typeString_created h hstaged hunlinked hq
    rw [heq] at hr'
    obtain rfl := Option.some.inj (hr.symm.trans hr')
    exact htext'.symm.trans htext
  · intro heq
    have hboth := hfind q hq
    rw [heq, hfind p hp] at hboth
    exact (Option.some.inj hboth).symm

/-- What the reference of an argument was resolved to. -/
theorem outcome_of_assigned {p : TemplateArgument × ReferenceId} (hp : p ∈ s.assigned) :
    s.shared.outcomeOf p.2 =
      s.resolution? p.1.typeString (s.ownerScope (s.bearer p.1).owner).1 := by
  have ht := h.tracks_shared hstaged
  obtain ⟨q, hq, hqp, r, hr, hout⟩ := ht.exists_first ((ht.outcomes _).2 (List.mem_map_of_mem hp))
  have hqmem : q ∈ s.assigned := (mem_of_mem_distinctBy hq).1
  obtain ⟨r', hr', htext⟩ := typeString_created h hstaged hunlinked hp
  obtain rfl := Option.some.inj (hr.symm.trans hr')
  -- the first with the reference is the first with the type string
  have hfirst : s.arguments.values.find? (·.typeString = p.1.typeString) = some q.1 := by
    have hfind := find?_of_mem_distinctBy hq
    rw [← hunlinked.unresolvedArguments_eq, ← map_fst_assigned, List.find?_map]
    refine Option.map_eq_some_iff.2 ⟨q, ?_, rfl⟩
    rw [← hfind]
    refine List.find?_congr fun x hx => decide_eq_decide.2 ?_
    rw [hqp]
    exact (assigned_eq_iff h hstaged hunlinked hp hx).symm
  rw [bearer, hfirst, Option.getD_some, Sharing.outcomeOf, hout, htext]
  rfl

end Unlinked

/-- **Template arguments mean what their type string means for the first of them.** After a pass
over a store that has only been declared, each has a reference with its own type string, and that is
resolved as the type string is in the scope of the first argument that has it. -/
theorem argument_meaning (h : empty.LeadsBy Operation.IsDeclaration s) (k : Nat) :
    (∃ report, (s.runResolution k).outcome = .ok report) ∧
    (s.runResolution k).store.arguments.keys = s.arguments.keys ∧
    ∀ id a, s.arguments.find? id = some a → ∃ rid r,
      (s.runResolution k).store.arguments.find? id = some { a with reference := some rid } ∧
      (s.runResolution k).store.references.find? rid = some r ∧ r.typeString = a.typeString ∧
      r.resolution = s.resolution? a.typeString (s.ownerScope (s.bearer a).owner).1 := by
  have hs : s.Sound := h.leads.sound sound_empty
  have hstaged := staged_of_declarations h
  have hunlinked := unlinked_of_declarations h
  obtain ⟨hstore, report, hok, -⟩ := run_resolved hs hstaged k
  rw [hstore]
  refine ⟨⟨report, hok⟩, ?_, fun id a ha => ?_⟩
  · rw [resolved_eq hs hstaged]
    exact Table.keys_writeAll _ _
  -- every argument was unresolved, so it has been assigned a reference
  have hmem : a ∈ s.assigned.map Prod.fst := by
    rw [map_fst_assigned, hunlinked.unresolvedArguments_eq]
    exact Table.mem_values_of_find? ha
  obtain ⟨p, hp, rfl⟩ := List.mem_map.1 hmem
  have hid : p.1.id = id := hs.argumentId _ (Table.mem_entries_of_find? ha)
  have hlinked := find?_arguments_resolved hs hstaged (map_fst_assigned s)
    (hs.tracks_shared hstaged) hp
  rw [hid] at hlinked
  obtain ⟨r₀, r, hr₀, hr, hchanged, hresolution⟩ :=
    hs.resolution_assigned hstaged hunlinked.separate hp
  obtain ⟨r', hr', htext⟩ := typeString_created hs hstaged hunlinked hp
  obtain rfl := Option.some.inj (hr₀.symm.trans hr')
  refine ⟨p.2, r, hlinked, hr, ?_, ?_⟩
  · rcases hchanged with rfl | ⟨-, w, rfl⟩
    · exact htext
    · cases w <;> exact htext
  · rw [hresolution, outcome_of_assigned hs hstaged hunlinked hp]

/-- Two types of one name, and a template argument with that name next to each of them. -/
def namesakes : Store :=
  [.addType { name := "Foo", space := "a", kind := .struct },
    .addType { name := "Foo", space := "b", kind := .struct },
    .addType { name := "Box<Foo>", space := "a", kind := .struct },
    .addType { name := "Box<Foo>", space := "b", kind := .struct },
    .addArgument ⟨3⟩ "Foo", Operation.addArgument ⟨4⟩ "Foo"].foldl perform empty

theorem declared_namesakes : empty.LeadsBy Operation.IsDeclaration namesakes := by
  refine leadsBy_foldl _ ?_ _
  simp [Operation.IsDeclaration]

theorem argument_meaning_namesakes : empty.LeadsBy Operation.IsDeclaration namesakes ∧
    ∃ rid r a, namesakes.arguments.find? ⟨6⟩ = some a ∧
      (namesakes.runResolution 25).store.arguments.find? ⟨6⟩ =
        some { a with reference := some rid } ∧
      (namesakes.runResolution 25).store.references.find? rid = some r ∧
      r.resolution = some (.type ⟨1⟩) := by
  obtain ⟨-, -, hall⟩ := argument_meaning declared_namesakes 25
  have hfind : namesakes.arguments.find? ⟨6⟩ = some ⟨⟨6⟩, ⟨4⟩, 0, "Foo", none⟩ := by
    decide +kernel
  obtain ⟨rid, r, hlinked, hr, -, hresolution⟩ := hall _ _ hfind
  have hmeans : namesakes.resolution? "Foo" (namesakes.ownerScope
      (namesakes.bearer ⟨⟨6⟩, ⟨4⟩, 0, "Foo", none⟩).owner).1 = some (.type ⟨1⟩) := by
    decide +kernel
  exact ⟨declared_namesakes, rid, r, _, hfind, hlinked, hr, hresolution.trans hmeans⟩

/-- An argument does not always mean what its type string means next to its own owner. -/
theorem argument_meaning_not_own : empty.LeadsBy Operation.IsDeclaration namesakes ∧
    (namesakes.runResolution 25).outcome.isOk = true ∧
    (((namesakes.runResolution 25).store.arguments.find? ⟨6⟩).bind fun a =>
      a.reference.bind fun id => ((namesakes.runResolution 25).store.references.find? id).bind
        (·.resolution)) = some (.type ⟨1⟩) ∧
    (namesakes.arguments.find? ⟨6⟩).map (fun a =>
      namesakes.resolution? a.typeString (namesakes.ownerScope a.owner).1) =
        some (some (.type ⟨2⟩)) := by
  refine ⟨declared_namesakes, ?_, ?_, ?_⟩ <;> decide +kernel

end Store

end DeclGraph
