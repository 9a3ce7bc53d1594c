import DeclGraph.Proofs.Chains
import DeclGraph.Resolve.Pass

/-!
# How template arguments share references

A pass goes through the template arguments in order and hands each one a reference: its own, that
of an earlier argument with the same type string, or a new one. What a reference was resolved to is
decided by the first argument that has it.

* `Sharing.referenceOf`, `Sharing.assign`: the reference that an argument gets, and those of all.
* `Sharing.Tracks`: what holds after some arguments have been dealt with.
* `Sharing.Tracks.step`: one argument.
* `Sharing.tracks_run`: all of them.
-/

namespace DeclGraph

/-! ## First occurrences -/

section Distinct

variable {α β κ : Type} [DecidableEq κ] {key : α → κ} {seen : List κ} {as : List α} {a : α}

theorem mem_of_mem_distinctBy (h : a ∈ distinctBy key seen as) : a ∈ as ∧ key a ∉ seen := by
  induction as generalizing seen with
  | nil => simp [distinctBy] at h
  | cons b as ih =>
    rw [distinctBy] at h
    split at h
    · obtain ⟨h₁, h₂⟩ := ih h
      exact ⟨List.mem_cons_of_mem _ h₁, h₂⟩
    · rcases List.mem_cons.1 h with rfl | h
      · exact ⟨List.mem_cons_self, ‹_›⟩
      · obtain ⟨h₁, h₂⟩ := ih h
        exact ⟨List.mem_cons_of_mem _ h₁, fun hseen => h₂ (List.mem_cons_of_mem _ hseen)⟩

theorem exists_mem_distinctBy (h : a ∈ as) (hseen : key a ∉ seen) :
    ∃ b ∈ distinctBy key seen as, key b = key a := by
  induction as generalizing seen with
  | nil => simp at h
  | cons b as ih =>
    rw [distinctBy]
    by_cases hb : key b ∈ seen
    · rw [if_pos hb]
      refine ih ((List.mem_cons.1 h).resolve_left ?_) hseen
      rintro rfl
      exact hseen hb
    · rw [if_neg hb]
      by_cases heq : key b = key a
      · exact ⟨b, List.mem_cons_self, heq⟩
      · have hmem : a ∈ as := (List.mem_cons.1 h).resolve_left (by rintro rfl; exact heq rfl)
        obtain ⟨c, hc, hkey⟩ := ih hmem (show key a ∉ key b :: seen by simp [hseen, Ne.symm heq])
        exact ⟨c, List.mem_cons_of_mem _ hc, hkey⟩

theorem pairwise_distinctBy (as : List α) : ∀ seen : List κ,
    (distinctBy key seen as).Pairwise fun a b => key a ≠ key b := by
  induction as with
  | nil => exact fun _ => .nil
  | cons a as ih =>
    intro seen
    rw [distinctBy]
    split
    · exact ih seen
    · refine List.pairwise_cons.2 ⟨fun b hb heq => ?_, ih _⟩
      exact (mem_of_mem_distinctBy hb).2 (heq ▸ List.mem_cons_self)

/-- An element with a new key is the first with that key. -/
theorem find?_of_mem_distinctBy (h : a ∈ distinctBy key seen as) :
    as.find? (fun b => key b = key a) = some a := by
  induction as generalizing seen with
  | nil => simp [distinctBy] at h
  | cons b as ih =>
    rw [distinctBy] at h
    by_cases hb : key b ∈ seen
    · rw [if_pos hb] at h
      have hne : key b ≠ key a := fun heq => (mem_of_mem_distinctBy h).2 (heq ▸ hb)
      rw [List.find?_cons_of_neg (by simpa using hne)]
      exact ih h
    · rw [if_neg hb] at h
      rcases List.mem_cons.1 h with rfl | h
      · exact List.find?_cons_of_pos (by simp)
      · have hne : key b ≠ key a :=
          fun heq => (mem_of_mem_distinctBy h).2 (heq ▸ List.mem_cons_self)
        rw [List.find?_cons_of_neg (by simpa using hne)]
        exact ih h

theorem distinctBy_append_singleton (as : List α) (a : α) : ∀ seen : List κ,
    distinctBy key seen (as ++ [a]) = distinctBy key seen as ++
      if key a ∈ seen ∨ key a ∈ as.map key then [] else [a] := by
  induction as with
  | nil =>
    intro seen
    simp only [List.nil_append, distinctBy, List.map_nil, List.not_mem_nil, or_false]
  | cons b as ih =>
    intro seen
    rw [List.cons_append, distinctBy, distinctBy]
    split
    · rw [ih]
      congr 1
      refine if_congr ?_ rfl rfl
      simp only [List.map_cons, List.mem_cons]
      grind
    · rw [ih, List.cons_append]
      congr 2
      refine if_congr ?_ rfl rfl
      simp only [List.map_cons, List.mem_cons]
      grind

/-- Leaving elements out by their keys leaves the first occurrences of the others as they are. -/
theorem distinctBy_filter (key : α → κ) (p : κ → Bool) (as : List α) : ∀ seen seen' : List κ,
    (∀ k, p k = true → (k ∈ seen ↔ k ∈ seen')) →
      distinctBy key seen (as.filter fun a => p (key a)) =
        (distinctBy key seen' as).filter fun a => p (key a) := by
  induction as with
  | nil => exact fun _ _ _ => rfl
  | cons a as ih =>
    intro seen seen' hseen
    rw [List.filter_cons, distinctBy]
    by_cases hp : p (key a) = true
    · rw [if_pos hp, distinctBy]
      by_cases hk : key a ∈ seen
      · rw [if_pos hk, if_pos ((hseen _ hp).1 hk)]
        exact ih _ _ hseen
      · rw [if_neg hk, if_neg fun hk' => hk ((hseen _ hp).2 hk'), List.filter_cons, if_pos hp]
        refine congrArg _ (ih _ _ fun k hpk => ?_)
        rw [List.mem_cons, List.mem_cons, hseen k hpk]
    · rw [if_neg hp]
      split
      · exact ih _ _ hseen
      -- the key of `a` has been seen on one side only, but nothing with this key is left
      · rw [List.filter_cons, if_neg hp]
        refine ih _ _ fun k hpk => ?_
        rw [List.mem_cons, hseen k hpk]
        refine ⟨.inr, fun h => h.resolve_left ?_⟩
        rintro rfl
        exact hp hpk

theorem distinctBy_map (key : α → κ) (f : β → α) {κ' : Type} [DecidableEq κ'] (key' : β → κ')
    {g : κ' → κ} (hg : Function.Injective g) (bs : List β)
    (hkey : ∀ b ∈ bs, key (f b) = g (key' b)) :
    ∀ seen : List κ', distinctBy key (seen.map g) (bs.map f) =
      (distinctBy key' seen bs).map f := by
  induction bs with
  | nil => exact fun _ => rfl
  | cons b bs ih =>
    intro seen
    rw [List.forall_mem_cons] at hkey
    rw [List.map_cons, distinctBy, distinctBy, hkey.1]
    by_cases hb : key' b ∈ seen
    · rw [if_pos hb, if_pos (List.mem_map_of_mem hb)]
      exact ih hkey.2 seen
    · rw [if_neg hb, if_neg fun hmem => hb ((List.mem_map_of_injective hg).1 hmem), List.map_cons,
        ← ih hkey.2 (key' b :: seen), List.map_cons]

end Distinct

namespace Sharing

/-- The reference that an argument gets: its own, that of its type string, or a new one. -/
def referenceOf (h : Sharing) (a : TemplateArgument) : ReferenceId :=
  match a.reference with
  | some id => id
  | none => (h.byString.find? a.typeString).getD ⟨h.store.nextId⟩

/-- Arguments with the references that they get one after the other. -/
def assign (h : Sharing) : List TemplateArgument → List (TemplateArgument × ReferenceId)
  | [] => []
  | a :: rest => (a, h.referenceOf a) :: (h.step a).1.assign rest

theorem referenceOf_of_some {h : Sharing} {a : TemplateArgument} {id : ReferenceId}
    (ha : a.reference = some id) : h.referenceOf a = id := by
  simp only [referenceOf, ha]

theorem referenceOf_of_none {h : Sharing} {a : TemplateArgument} (ha : a.reference = none) :
    h.referenceOf a = (h.byString.find? a.typeString).getD ⟨h.store.nextId⟩ := by
  simp only [referenceOf, ha]

theorem map_fst_assign (as : List TemplateArgument) (h : Sharing) :
    (h.assign as).map Prod.fst = as := by
  induction as generalizing h with
  | nil => rfl
  | cons a as ih => rw [assign, List.map_cons, ih]

/-- What holds of a pass over the template arguments of `s` that has dealt with those in `done`,
each with the reference it has got. -/
structure Tracks (s : Store) (h : Sharing) (done : List (TemplateArgument × ReferenceId)) :
    Prop where
  /-- Nothing but references has been staged. -/
  store : h.store = { s with
    nextId := h.store.nextId
    staged := { s.staged with references := h.store.staged.references } }
  sound : h.store.Sound
  targets : ∀ r ∈ h.store.staged.references, ∀ t, r.target = some t → t ∈ s.types.keys
  byString : ∀ typeString id, h.byString.find? typeString = some id →
    h.outcomes.contains id = true
  outcomes : ∀ id, h.outcomes.contains id = true ↔ id ∈ done.map Prod.snd
  /-- The first argument that has a reference decides what it is resolved to. -/
  first : ∀ p ∈ distinctBy Prod.snd [] done, ∃ r, h.store.created.find? p.2 = some r ∧
    h.outcomes.find? p.2 = some (s.resolution? r.typeString (s.ownerScope p.1.owner).1)
  resolved : ∀ id found, h.outcomes.find? id = some (some found) →
    (∃ r, h.store.created.find? id = some r ∧ r.resolution.isSome = true) ∨
      (id, found) ∈ h.resolutions
  assigned : ∀ p ∈ done, p.1.reference = some p.2 ∨
    p.1.reference = none ∧ (p.1.id, p.2) ∈ h.links
  links : ∀ w ∈ h.links, ∃ p ∈ done, p.1.reference = none ∧ w = (p.1.id, p.2)
  resolutions : ∀ w ∈ h.resolutions, h.outcomes.find? w.1 = some (some w.2) ∧
    ∃ r, s.references.find? w.1 = some r ∧ r.resolution = none

variable {s : Store} {h : Sharing} {done : List (TemplateArgument × ReferenceId)}

theorem tracks_start (hs : s.Sound) (hstaged : s.staged = {}) : Tracks s { store := s } [] where
  store := by rw [hstaged, ← hstaged]
  sound := hs
  targets := by simp [hstaged]
  byString := by simp [Table.find?]
  outcomes := by simp [Table.contains, Table.find?]
  first := by simp [distinctBy]
  resolved := by simp [Table.find?]
  assigned := by simp
  links := by simp
  resolutions := by simp

/-- Resolving reads nothing of what has been staged. -/
theorem Tracks.resolution?_eq (ht : Tracks s h done) (typeString scope : String) :
    h.store.resolution? typeString scope = s.resolution? typeString scope := by
  have hstore := ht.store
  refine Store.resolution?_congr ?_ ?_ ?_ ?_ ?_ typeString scope <;> rw [hstore]

theorem Tracks.ownerScope_eq (ht : Tracks s h done) (id : TypeId) :
    h.store.ownerScope id = s.ownerScope id := by
  rw [Store.ownerScope, Store.ownerScope, ht.store]

/-- The link that an argument needs to get a reference. -/
def linkOf (a : TemplateArgument) (id : ReferenceId) : List (ArgumentId × ReferenceId) :=
  if a.reference.isNone then [(a.id, id)] else []

/-- A reference that some argument has got is known, and its outcome is what its type string means
where the first of them is declared. -/
theorem Tracks.exists_first (ht : Tracks s h done) {id : ReferenceId}
    (hid : h.outcomes.contains id = true) : ∃ p ∈ distinctBy Prod.snd [] done, p.2 = id ∧
      ∃ r, h.store.created.find? id = some r ∧
        h.outcomes.find? id = some (s.resolution? r.typeString (s.ownerScope p.1.owner).1) := by
  obtain ⟨p, hp, rfl⟩ := List.mem_map.1 ((ht.outcomes id).1 hid)
  obtain ⟨q, hq, heq⟩ := exists_mem_distinctBy hp (show p.2 ∉ [] by simp)
  exact ⟨q, hq, heq, heq ▸ ht.first q hq⟩

section Step

variable (ht : Tracks s h done) {a : TemplateArgument} {id : ReferenceId}
  (ha : a.reference = some id ∨ a.reference = none)

include ht ha

theorem Tracks.assigned_append : ∀ p ∈ done ++ [(a, id)], p.1.reference = some p.2 ∨
    p.1.reference = none ∧ (p.1.id, p.2) ∈ h.links ++ linkOf a id := by
  refine List.forall_mem_append.2 ⟨fun p hp => ?_, fun p hp => ?_⟩
  · rcases ht.assigned p hp with hsome | ⟨hnone, hlink⟩
    · exact .inl hsome
    · exact .inr ⟨hnone, List.mem_append_left _ hlink⟩
  · obtain rfl := List.mem_singleton.1 hp
    rcases ha with hsome | hnone
    · exact .inl hsome
    · exact .inr ⟨hnone, List.mem_append_right _ (by simp [linkOf, hnone])⟩

omit ha in
theorem Tracks.links_append : ∀ w ∈ h.links ++ linkOf a id,
    ∃ p ∈ done ++ [(a, id)], p.1.reference = none ∧ w = (p.1.id, p.2) := by
  refine List.forall_mem_append.2 ⟨fun w hw => ?_, fun w hw => ?_⟩
  · obtain ⟨p, hp, hw'⟩ := ht.links w hw
    exact ⟨p, List.mem_append_left _ hp, hw'⟩
  · rw [linkOf] at hw
    split at hw
    · next hnone =>
      obtain rfl := List.mem_singleton.1 hw
      exact ⟨(a, id), by simp, Option.isNone_iff_eq_none.1 hnone, rfl⟩
    · cases hw

/-- An argument gets a reference that another one has got before. -/
theorem Tracks.again (hid : h.outcomes.contains id = true) :
    Tracks s { h with links := h.links ++ linkOf a id } (done ++ [(a, id)]) := by
  have hmem := (ht.outcomes id).1 hid
  exact {
    ht with
    outcomes := by
      intro id'
      rw [ht.outcomes, List.map_append, List.mem_append]
      refine ⟨.inl, fun hid' => ?_⟩
      rcases hid' with hid' | hid'
      · exact hid'
      · obtain rfl := List.mem_singleton.1 hid'
        exact hmem
    first := by
      rw [distinctBy_append_singleton, if_pos (.inr hmem), List.append_nil]
      exact ht.first
    assigned := ht.assigned_append ha
    links := ht.links_append }

/-- What a step from `h` to `h'` does if the argument `a` is the first to get the reference `id`, to
which `r` belongs: the reference is resolved for it. -/
structure Adds (s : Store) (h h' : Sharing) (a : TemplateArgument) (id : ReferenceId)
    (r : Reference) : Prop where
  store : h'.store = { s with
    nextId := h'.store.nextId
    staged := { s.staged with references := h'.store.staged.references } }
  sound : h'.store.Sound
  targets : ∀ r ∈ h'.store.staged.references, ∀ t, r.target = some t → t ∈ s.types.keys
  byString : ∀ typeString id', h'.byString.find? typeString = some id' →
    id' = id ∨ h.byString.find? typeString = some id'
  outcomes : h'.outcomes =
    h.outcomes.insert id (s.resolution? r.typeString (s.ownerScope a.owner).1)
  created : ∀ id r, h.store.created.find? id = some r → h'.store.created.find? id = some r
  reference : h'.store.created.find? id = some r
  links : h'.links = h.links ++ linkOf a id
  kept : ∀ w ∈ h.resolutions, w ∈ h'.resolutions
  /-- What is found is written into a new reference, and staged for one that was there. -/
  resolved : ∀ found, s.resolution? r.typeString (s.ownerScope a.owner).1 = some found →
    r.resolution.isSome = true ∨ (id, found) ∈ h'.resolutions
  resolutions : ∀ w ∈ h'.resolutions, w ∈ h.resolutions ∨
    w.1 = id ∧ s.resolution? r.typeString (s.ownerScope a.owner).1 = some w.2 ∧
      s.references.find? id = some r ∧ r.resolution = none

/-- An argument is the first to have a reference, which is resolved for it. -/
theorem Tracks.anew (hid : h.outcomes.contains id = false) {h' : Sharing} {r : Reference}
    (hadds : Adds s h h' a id r) : Tracks s h' (done ++ [(a, id)]) := by
  have hnew : id ∉ done.map Prod.snd := by
    rw [← ht.outcomes, hid]
    exact Bool.false_ne_true
  -- the references that were given before keep their outcomes
  have hold : ∀ p ∈ done, h'.outcomes.find? p.2 = h.outcomes.find? p.2 := by
    intro p hp
    rw [hadds.outcomes, Table.find?_insert, if_neg]
    rintro rfl
    exact hnew (List.mem_map_of_mem hp)
  exact {
    store := hadds.store
    sound := hadds.sound
    targets := hadds.targets
    byString := by
      intro typeString id' hid'
      rw [hadds.outcomes, Table.contains, Table.find?_insert]
      split
      · rfl
      · next hne =>
        exact ht.byString typeString id' ((hadds.byString typeString id' hid').resolve_left hne)
    outcomes := by
      intro id'
      rw [hadds.outcomes, Table.contains, Table.find?_insert, List.map_append, List.mem_append,
        ← ht.outcomes, Table.contains]
      by_cases heq : id' = id
      · simp [heq]
      · simp [heq]
    first := by
      rw [distinctBy_append_singleton, if_neg (by simpa using hnew)]
      refine List.forall_mem_append.2 ⟨fun p hp => ?_, fun p hp => ?_⟩
      · obtain ⟨r, hr, hout⟩ := ht.first p hp
        exact ⟨r, hadds.created _ _ hr, (hold p (mem_of_mem_distinctBy hp).1).trans hout⟩
      · obtain rfl := List.mem_singleton.1 hp
        exact ⟨r, hadds.reference, by rw [hadds.outcomes, Table.find?_insert, if_pos rfl]⟩
    resolved := by
      intro id' found hfound
      rw [hadds.outcomes, Table.find?_insert] at hfound
      split at hfound
      · next heq =>
        subst heq
        rcases hadds.resolved found (Option.some.inj hfound) with hsome | hmem
        · exact .inl ⟨r, hadds.reference, hsome⟩
        · exact .inr hmem
      · rcases ht.resolved id' found hfound with ⟨r', hr', hsome⟩ | hmem
        · exact .inl ⟨r', hadds.created _ _ hr', hsome⟩
        · exact .inr (hadds.kept _ hmem)
    assigned := hadds.links ▸ ht.assigned_append ha
    links := hadds.links ▸ ht.links_append
    resolutions := by
      intro w hw
      rcases hadds.resolutions w hw with hw | ⟨hw, hfound, hr, hnone⟩
      · obtain ⟨hout, hr⟩ := ht.resolutions w hw
        refine ⟨?_, hr⟩
        rw [hadds.outcomes, Table.find?_insert, if_neg, hout]
        rintro heq
        rw [← heq, Table.contains, hout] at hid
        cases hid
      · refine ⟨?_, r, hw ▸ hr, hnone⟩
        rw [hadds.outcomes, Table.find?_insert, if_pos hw, hfound] }

end Step

/-- What a step resolves is what the store before the pass says. -/
theorem Tracks.value_resolveNoting (ht : Tracks s h done) (typeString : String)
    (owner : TypeId) :
    (h.store.resolveNoting typeString (h.store.ownerScope owner).1).value =
      s.resolution? typeString (s.ownerScope owner).1 := by
  rw [Store.value_resolveNoting, ht.resolution?_eq, ht.ownerScope_eq]

/-- An argument that has a reference keeps it. -/
theorem Tracks.withReference (ht : Tracks s h done) {a : TemplateArgument} {id : ReferenceId}
    {r : Reference} (hlinked : a.reference = some id) (hfind : s.references.find? id = some r)
    (hnone : r.resolution = none) :
    Tracks s (h.withReference a (h.store.ownerScope a.owner).1 id).1 (done ++ [(a, id)]) := by
  rw [Sharing.withReference]
  cases hid : h.outcomes.contains id with
  | true =>
    have hagain := ht.again (.inl hlinked) hid
    rw [linkOf, hlinked] at hagain
    simpa using hagain
  | false =>
    have htext : ((h.store.references.find? id).map (·.typeString)).getD a.typeString =
        r.typeString := by
      rw [ht.store]
      simp only [hfind, Option.map_some, Option.getD_some]
    simp only [htext, ht.value_resolveNoting, Bool.false_eq_true, if_false]
    exact ht.anew (.inl hlinked) hid {
      store := ht.store
      sound := ht.sound
      targets := ht.targets
      outcomes := rfl
      created := fun _ _ hr => hr
      kept := fun w hw => List.mem_append_left _ hw
      byString := by
        intro typeString id' hid'
        split at hid'
        · exact .inr hid'
        · rw [Table.find?_insert] at hid'
          split at hid'
          · exact .inl (Option.some.inj hid').symm
          · exact .inr hid'
      reference := by
        rw [ht.sound.find?_created, ht.store]
        exact .inl hfind
      links := by simp [linkOf, hlinked]
      resolved := by
        intro found hfound
        exact .inr (List.mem_append_right _ (by simp [hfound]))
      resolutions := by
        refine List.forall_mem_append.2 ⟨fun w hw => .inl hw, fun w hw => ?_⟩
        rw [Option.mem_toList, Option.map_eq_some_iff] at hw
        obtain ⟨found, hfound, rfl⟩ := hw
        exact .inr ⟨rfl, hfound, hfind, hnone⟩ }

/-- The reference that is created for a type string that means `found`. -/
def createdReference (typeString : String) (found : Option Resolution) : Reference :=
  (found.map (Reference.ofTypeString ⟨0⟩ typeString).apply).getD
    (Reference.ofTypeString ⟨0⟩ typeString)

theorem typeString_createdReference (typeString : String) (found : Option Resolution) :
    (createdReference typeString found).typeString = typeString := by
  rcases found with _ | _ | _ <;> rfl

theorem target_createdReference {typeString : String} {found : Option Resolution} {t : TypeId}
    (h : (createdReference typeString found).target = some t) : found = some (.type t) := by
  rcases found with _ | t' | _
  · cases h
  · exact congrArg (some ∘ Resolution.type) (Option.some.inj h)
  · cases h

/-- An argument that has no reference gets that of its type string, which is created if there is
none. -/
theorem Tracks.withoutReference (hs : s.Sound) (ht : Tracks s h done) {a : TemplateArgument}
    (hopen : a.reference = none) :
    Tracks s (h.withoutReference a (h.store.ownerScope a.owner).1).1
      (done ++ [(a, h.referenceOf a)]) := by
  rw [Sharing.withoutReference, referenceOf_of_none hopen]
  cases hid : h.byString.find? a.typeString with
  | some id =>
    rw [Option.getD_some]
    have hagain := ht.again (.inr hopen) (ht.byString _ _ hid)
    rw [linkOf, hopen] at hagain
    exact hagain
  | none =>
    simp only [Option.getD_none, ht.value_resolveNoting]
    generalize hfound : s.resolution? a.typeString (s.ownerScope a.owner).1 = found
    rw [← createdReference]
    generalize hr : createdReference a.typeString found = r
    have htext : r.typeString = a.typeString := hr ▸ typeString_createdReference _ _
    obtain ⟨hcreated, hkept⟩ := ht.sound.find?_created_stageReference r
    -- the number of the new reference is fresh, so it has no outcome
    have hfresh : h.outcomes.contains ⟨h.store.nextId⟩ = false := by
      by_contra hcontains
      obtain ⟨-, -, -, r, hr, -⟩ := ht.exists_first (Bool.not_eq_false _ ▸ hcontains)
      rw [ht.sound.next_not_mem_created] at hr
      cases hr
    exact ht.anew (.inr hopen) hfresh {
      sound := ht.sound.stageReference r
      created := hkept
      reference := hcreated
      kept := fun _ hw => hw
      resolutions := fun _ hw => .inl hw
      store := by
        rw [Store.stageReference]
        simp only
        rw [ht.store]
      targets := by
        refine List.forall_mem_append.2 ⟨ht.targets, fun r' hr' t htarget => ?_⟩
        obtain rfl := List.mem_singleton.1 hr'
        subst hr
        exact hs.mem_types_of_resolution? (hfound.trans (target_createdReference htarget))
      byString := by
        intro typeString id' hid'
        rw [Table.find?_insert] at hid'
        split at hid'
        · exact .inl (Option.some.inj hid').symm
        · exact .inr hid'
      outcomes := by
        simp only [htext, hfound]
        rfl
      links := by simp [linkOf, hopen, Store.stageReference]
      resolved := by
        intro x hx
        simp only [htext, hfound] at hx
        subst hx hr
        exact .inl (Reference.isSome_resolution_apply _ _) }

/-- **One argument** gets a reference, and what the reference is resolved to is known. -/
theorem Tracks.step (hs : s.Sound) (ht : Tracks s h done) (a : TemplateArgument)
    (ha : ∀ id, a.reference = some id → ∃ r, s.references.find? id = some r ∧ r.resolution = none) :
    Tracks s (h.step a).1 (done ++ [(a, h.referenceOf a)]) := by
  rw [Sharing.step]
  cases hr : a.reference with
  | some id =>
    obtain ⟨r, hfind, hnone⟩ := ha id hr
    rw [referenceOf_of_some hr]
    exact ht.withReference hr hfind hnone
  | none => exact ht.withoutReference hs hr

theorem tracks_run (hs : s.Sound) (as : List TemplateArgument)
    (has : ∀ a ∈ as, ∀ id, a.reference = some id →
      ∃ r, s.references.find? id = some r ∧ r.resolution = none) :
    ∀ {h : Sharing} {done : List (TemplateArgument × ReferenceId)}, Tracks s h done →
      Tracks s (h.run as).1 (done ++ h.assign as) := by
  induction as with
  | nil => exact fun ht => by simpa [Sharing.run, assign] using ht
  | cons a as ih =>
    intro h done ht
    rw [List.forall_mem_cons] at has
    have hrest := ih has.2 (ht.step hs a has.1)
    rw [List.append_assoc] at hrest
    exact hrest

/-- Where every argument has a reference, none is created and none is linked. -/
theorem run_of_linked (as : List TemplateArgument) (has : ∀ a ∈ as, a.reference ≠ none)
    (h : Sharing) : (h.run as).1.store = h.store ∧ (h.run as).1.links = h.links ∧
      (h.run as).1.created = h.created := by
  induction as generalizing h with
  | nil => exact ⟨rfl, rfl, rfl⟩
  | cons a as ih =>
    rw [List.forall_mem_cons] at has
    have hstep : (h.step a).1.store = h.store ∧ (h.step a).1.links = h.links ∧
        (h.step a).1.created = h.created := by
      obtain ⟨id, hid⟩ := Option.ne_none_iff_exists'.1 has.1
      simp only [Sharing.step, hid, withReference]
      split <;> exact ⟨rfl, rfl, rfl⟩
    obtain ⟨hstore, hlinks, hcreated⟩ := ih has.2 (h.step a).1
    exact ⟨hstore.trans hstep.1, hlinks.trans hstep.2.1, hcreated.trans hstep.2.2⟩

end Sharing

end DeclGraph
