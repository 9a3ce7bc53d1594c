import DeclGraph.Proofs.Assigned

/-!
# What a pass links template arguments to

After a resolution pass every template argument has a reference. One that had a reference keeps it.
The others get that of their type string, which is created if no argument has brought it along, and
only once.

* `Sharing.Bears`: every reference that is created is that of an argument with its type string.
* `Store.Sound.eq_of_created`: no two of them have the same type string.
* `Store.arguments_linked`: **what arguments are linked to after a pass.**
-/

namespace DeclGraph

namespace Sharing

/-- Every reference that has been created was created for an argument without one, and has the type
string of that argument. -/
def Bears (h : Sharing) (done : List (TemplateArgument × ReferenceId)) : Prop :=
  ∀ r ∈ h.store.staged.references,
    ∃ p ∈ done, p.1.reference = none ∧ p.1.typeString = r.typeString ∧ p.2 = r.id

variable {h : Sharing} {done : List (TemplateArgument × ReferenceId)}

theorem Bears.append (hb : Bears h done) {h' : Sharing} (p : TemplateArgument × ReferenceId)
    (hsame : h'.store = h.store) : Bears h' (done ++ [p]) := by
  intro r hr
  rw [hsame] at hr
  obtain ⟨q, hq, hbears⟩ := hb r hr
  exact ⟨q, List.mem_append_left _ hq, hbears⟩

theorem Bears.withReference (hb : Bears h done) (a : TemplateArgument) (scope : String)
    (id : ReferenceId) : Bears (h.withReference a scope id).1 (done ++ [(a, id)]) := by
  refine hb.append _ ?_
  rw [Sharing.withReference]
  split <;> rfl

theorem Bears.withoutReference (hb : Bears h done) {a : TemplateArgument}
    (hopen : a.reference = none) (scope : String) :
    Bears (h.withoutReference a scope).1 (done ++ [(a, h.referenceOf a)]) := by
  rw [Sharing.withoutReference, referenceOf_of_none hopen]
  cases hid : h.byString.find? a.typeString with
  | some id => exact hb.append _ rfl
  | none =>
    rw [Option.getD_none]
    dsimp only [Store.stageReference]
    refine List.forall_mem_append.2 ⟨fun r hr => ?_, fun r hr => ?_⟩
    · obtain ⟨q, hq, hbears⟩ := hb r hr
      exact ⟨q, List.mem_append_left _ hq, hbears⟩
    · obtain rfl := List.mem_singleton.1 hr
      refine ⟨(a, ⟨h.store.nextId⟩), List.mem_append_right _ List.mem_cons_self, hopen, ?_, rfl⟩
      exact (typeString_createdReference _ _).symm

/-- **One argument** creates at most one reference, with its own type string. -/
theorem Bears.step (hb : Bears h done) (a : TemplateArgument) :
    Bears (h.step a).1 (done ++ [(a, h.referenceOf a)]) := by
  rw [Sharing.step]
  cases hr : a.reference with
  | some id =>
    rw [referenceOf_of_some hr]
    exact hb.withReference a _ id
  | none => exact hb.withoutReference hr _

theorem bears_run (as : List TemplateArgument) :
    ∀ {h : Sharing} {done : List (TemplateArgument × ReferenceId)}, Bears h done →
      Bears (h.run as).1 (done ++ h.assign as) := by
  induction as with
  | nil => exact fun hb => by simpa [Sharing.run, assign] using hb
  | cons a as ih =>
    intro h done hb
    have hrest := ih (hb.step a)
    rw [List.append_assoc] at hrest
    exact hrest

end Sharing

namespace Store

variable {s : Store}

theorem bears_shared (hstaged : s.staged = {}) : Sharing.Bears s.shared s.assigned := by
  have hstart : Sharing.Bears { store := s } [] := by simp [Sharing.Bears, hstaged]
  have hb := Sharing.bears_run s.unresolvedArguments hstart
  rwa [List.nil_append] at hb

section Pass

variable (h : s.Sound) (hstaged : s.staged = {})

include h hstaged

/-- The references of a store after a pass are those that it had and those that the pass created,
and type strings stay. -/
theorem Sound.origin_of_resolved {id : ReferenceId} {r : Reference}
    (hr : s.resolved.references.find? id = some r) : id ∈ s.references.keys ∨
      ∃ r₀ ∈ s.shared.store.staged.references, r₀.id = id ∧ r₀.typeString = r.typeString := by
  have hmem : id ∈ s.shared.store.created.keys := by
    rw [resolved_eq h hstaged] at hr
    exact Table.keys_writeAll s.shared.store.created _ ▸ Table.mem_keys_of_find? hr
  obtain ⟨r₀, hr₀⟩ := Table.exists_find? hmem
  obtain ⟨r', hr', -, hchanged⟩ := h.resolution_resolved hstaged hr₀
  obtain rfl := Option.some.inj (hr.symm.trans hr')
  have ht := h.tracks_shared hstaged
  rcases ht.sound.find?_created.1 hr₀ with hold | ⟨hnew, hid⟩
  · rw [ht.store] at hold
    exact .inl (Table.mem_keys_of_find? hold)
  · refine .inr ⟨r₀, hnew, hid, ?_⟩
    rcases hchanged with rfl | ⟨-, w, rfl⟩
    · rfl
    · cases w <;> rfl

/-- A reference that the pass created is that of an argument with its type string, which had none
before. -/
theorem Sound.exists_bearer {id : ReferenceId} {r : Reference} (hid : id ∉ s.references.keys)
    (hr : s.resolved.references.find? id = some r) :
    ∃ p ∈ s.assigned, p.1.reference = none ∧ p.1.typeString = r.typeString ∧ p.2 = id := by
  obtain hold | ⟨r₀, hnew, rfl, htext⟩ := h.origin_of_resolved hstaged hr
  · exact absurd hold hid
  · obtain ⟨p, hp, hopen, hsame, heq⟩ := bears_shared hstaged r₀ hnew
    exact ⟨p, hp, hopen, hsame.trans htext, heq⟩

/-- Arguments without a reference get the same one if they have the same type string. -/
theorem Sound.eq_of_typeString {p q : TemplateArgument × ReferenceId} (hp : p ∈ s.assigned)
    (hq : q ∈ s.assigned) (hpopen : p.1.reference = none) (hqopen : q.1.reference = none)
    (htext : p.1.typeString = q.1.typeString) : p.2 = q.2 := by
  have ha := h.assigns_shared hstaged
  have hfind := ha.byString p hp hpopen
  rw [htext, ha.byString q hq hqopen] at hfind
  exact (Option.some.inj hfind).symm

/-- **No two references are created for one type string.** -/
theorem Sound.eq_of_created {id id' : ReferenceId} {r r' : Reference} (hid : id ∉ s.references.keys)
    (hid' : id' ∉ s.references.keys) (hr : s.resolved.references.find? id = some r)
    (hr' : s.resolved.references.find? id' = some r') (htext : r.typeString = r'.typeString) :
    id = id' := by
  obtain ⟨p, hp, hopen, hsame, rfl⟩ := h.exists_bearer hstaged hid hr
  obtain ⟨q, hq, hopen', hsame', rfl⟩ := h.exists_bearer hstaged hid' hr'
  refine h.eq_of_typeString hstaged hp hq hopen hopen' ?_
  rw [hsame, htext, hsame']

/-- An argument without a reference is linked to the one that it is assigned. -/
theorem Sound.exists_assigned {id : ArgumentId} {a : TemplateArgument}
    (ha : s.arguments.find? id = some a) (hopen : a.reference = none) :
    ∃ p ∈ s.assigned, p.1 = a ∧
      s.resolved.arguments.find? id = some { a with reference := some p.2 } := by
  have hmem : a ∈ s.assigned.map Prod.fst := by
    rw [map_fst_assigned]
    refine List.mem_filter.2 ⟨Table.mem_values_of_find? ha, ?_⟩
    rw [hopen]
  obtain ⟨p, hp, rfl⟩ := List.mem_map.1 hmem
  have hlinked := find?_arguments_resolved h hstaged (map_fst_assigned s)
    (h.tracks_shared hstaged) hp
  rw [h.argumentId _ (Table.mem_entries_of_find? ha)] at hlinked
  exact ⟨p, hp, rfl, hlinked⟩

/-- An argument with a reference is left as it is. -/
theorem Sound.find?_resolved_of_linked {id : ArgumentId} {a : TemplateArgument}
    (ha : s.arguments.find? id = some a) (hlinked : a.reference ≠ none) :
    s.resolved.arguments.find? id = some a := by
  rw [resolved_eq h hstaged]
  refine Table.find?_writeAll_of_kept ha fun w _ _ => ?_
  simp [changeArgument, hlinked]

end Pass

/-- **What template arguments are linked to after a pass** over a store on which nothing is staged.
The pass succeeds. Every argument has a reference then, and the reference exists. One that had a
reference keeps it, and the others have the same reference if they have the same type string. The
references that the pass has created have distinct type strings, each that of an argument which has
been linked to it. -/
theorem arguments_linked (h : s.Reachable) (hstaged : s.staged = {}) (k : Nat) :
    (∃ report, (s.runResolution k).outcome = .ok report) ∧
    (s.runResolution k).store.arguments.keys = s.arguments.keys ∧
    (∀ id a, (s.runResolution k).store.arguments.find? id = some a →
      ∃ rid r, a.reference = some rid ∧
        (s.runResolution k).store.references.find? rid = some r) ∧
    (∀ id a, s.arguments.find? id = some a → a.reference ≠ none →
      (s.runResolution k).store.arguments.find? id = some a) ∧
    (∀ id id' a a', s.arguments.find? id = some a → s.arguments.find? id' = some a' →
      a.reference = none → a'.reference = none → a.typeString = a'.typeString →
      ∃ rid, (s.runResolution k).store.arguments.find? id = some { a with reference := some rid } ∧
        (s.runResolution k).store.arguments.find? id' =
          some { a' with reference := some rid }) ∧
    (∀ rid rid' r r', rid ∉ s.references.keys → rid' ∉ s.references.keys →
      (s.runResolution k).store.references.find? rid = some r →
      (s.runResolution k).store.references.find? rid' = some r' →
      r.typeString = r'.typeString → rid = rid') ∧
    ∀ rid r, rid ∉ s.references.keys →
      (s.runResolution k).store.references.find? rid = some r →
      ∃ id a, s.arguments.find? id = some a ∧ a.reference = none ∧
        a.typeString = r.typeString ∧
        (s.runResolution k).store.arguments.find? id = some { a with reference := some rid } := by
  have hs := h.sound
  obtain ⟨hstore, report, hok, -⟩ := run_resolved hs hstaged k
  have hkeys : s.resolved.arguments.keys = s.arguments.keys := by
    rw [resolved_eq hs hstaged]
    exact Table.keys_writeAll _ _
  have hsound := hs.resolved hstaged
  rw [hstore]
  refine ⟨⟨report, hok⟩, hkeys, fun id a ha => ?_,
    fun id a ha hlinked => hs.find?_resolved_of_linked hstaged ha hlinked,
    fun id id' a a' ha ha' hopen hopen' htext => ?_,
    fun rid rid' r r' hrid hrid' hr hr' htext =>
      hs.eq_of_created hstaged hrid hrid' hr hr' htext,
    fun rid r hrid hr => ?_⟩
  · -- the argument was there before the pass, with a reference or without one
    obtain ⟨a₀, ha₀⟩ := Table.exists_find? (hkeys ▸ Table.mem_keys_of_find? ha)
    have hlinked : ∃ rid, a.reference = some rid := by
      cases hopen : a₀.reference with
      | none =>
        obtain ⟨p, -, -, hlinked⟩ := hs.exists_assigned hstaged ha₀ hopen
        obtain rfl := Option.some.inj (ha.symm.trans hlinked)
        exact ⟨p.2, rfl⟩
      | some rid =>
        have hkept := hs.find?_resolved_of_linked hstaged ha₀ (by simp [hopen])
        obtain rfl := Option.some.inj (ha.symm.trans hkept)
        exact ⟨rid, hopen⟩
    obtain ⟨rid, hrid⟩ := hlinked
    obtain ⟨r, hr⟩ := Table.exists_find?
      (hsound.argumentReference _ (Table.mem_entries_of_find? ha) rid hrid)
    exact ⟨rid, r, hrid, hr⟩
  · obtain ⟨p, hp, rfl, hlinked⟩ := hs.exists_assigned hstaged ha hopen
    obtain ⟨q, hq, rfl, hlinked'⟩ := hs.exists_assigned hstaged ha' hopen'
    rw [← hs.eq_of_typeString hstaged hp hq hopen hopen' htext] at hlinked'
    exact ⟨p.2, hlinked, hlinked'⟩
  · obtain ⟨p, hp, hopen, htext, rfl⟩ := hs.exists_bearer hstaged hrid hr
    have hfind := (hs.find?_unresolvedArgument (mem_unresolvedArguments_of_assigned hp)).1
    obtain ⟨q, hq, hqp, hlinked⟩ := hs.exists_assigned hstaged hfind hopen
    refine ⟨p.1.id, p.1, hfind, hopen, htext, ?_⟩
    rw [hlinked, hs.eq_of_typeString hstaged hq hp (hqp ▸ hopen) hopen (by rw [hqp])]

/-- Two types with two template arguments each. The second of `Box` has a reference already, with a
type string that the first has too. Those of `Pair` are not linked. -/
def halfLinked : Store :=
  [.addType { name := "Box", kind := .struct }, .addType { name := "Pair", kind := .struct },
    .addArgument ⟨1⟩ "Foo", .addArgument ⟨1⟩ "Foo", .addArgument ⟨2⟩ "Bar", .addArgument ⟨2⟩ "Bar",
    .stageReference (Reference.ofTypeString ⟨0⟩ "Foo"), .stageLinks [(⟨4⟩, ⟨7⟩)],
    Operation.flush].foldl perform empty

/-- In `halfLinked`, the linked argument keeps its reference, and those of `Pair` get one between
them. -/
theorem arguments_linked_halfLinked : halfLinked.Reachable ∧ halfLinked.staged = {} ∧
    (∃ a, halfLinked.arguments.find? ⟨4⟩ = some a ∧ a.reference = some ⟨7⟩ ∧
      (halfLinked.runResolution 25).store.arguments.find? ⟨4⟩ = some a) ∧
    ∃ a a' rid, halfLinked.arguments.find? ⟨5⟩ = some a ∧ a.reference = none ∧
      halfLinked.arguments.find? ⟨6⟩ = some a' ∧ a'.reference = none ∧
      (halfLinked.runResolution 25).store.arguments.find? ⟨5⟩ =
        some { a with reference := some rid } ∧
      (halfLinked.runResolution 25).store.arguments.find? ⟨6⟩ =
        some { a' with reference := some rid } := by
  have hreachable : halfLinked.Reachable := leads_foldl _ _
  obtain ⟨hstaged, hsecond, hthird, hfourth⟩ : halfLinked.staged = {} ∧
      halfLinked.arguments.find? ⟨4⟩ = some ⟨⟨4⟩, ⟨1⟩, 1, "Foo", some ⟨7⟩⟩ ∧
      halfLinked.arguments.find? ⟨5⟩ = some ⟨⟨5⟩, ⟨2⟩, 0, "Bar", none⟩ ∧
      halfLinked.arguments.find? ⟨6⟩ = some ⟨⟨6⟩, ⟨2⟩, 1, "Bar", none⟩ := by
    decide +kernel
  obtain ⟨-, -, -, hkept, hshared, -⟩ := arguments_linked hreachable hstaged 25
  obtain ⟨rid, hrid, hrid'⟩ := hshared _ _ _ _ hthird hfourth rfl rfl rfl
  exact ⟨hreachable, hstaged, ⟨_, hsecond, rfl, hkept _ _ hsecond (by simp)⟩,
    _, _, rid, hthird, rfl, hfourth, rfl, hrid, hrid'⟩

end Store

end DeclGraph
