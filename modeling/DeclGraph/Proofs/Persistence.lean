import DeclGraph.Proofs.Reachable

/-!
# What a store holds stays

Whatever is done with a store, no entity leaves it, and none changes what it was declared as. What
a reference is resolved to, what a base names and which reference a template argument has are
written once; only sizes and offsets are written again.

* `Reference.Kept` and its neighbours: how an entity may change.
* `Store.Extends`: a store that holds whatever another one holds, so changed at most.
* `Store.Sound.extends_perform`: one operation. The numbers of new references are fresh, so that
  none of them takes the place of one that is there.
* `Store.resolution_monotone`: **every run of operations.**
-/

namespace DeclGraph

/-- A reference keeps its declaration, and all of itself once it is resolved. -/
structure Reference.Kept (r r' : Reference) : Prop where
  declared : r'.declared = r.declared
  resolved : ∀ found, r.resolution = some found → r' = r

/-- A type keeps its declaration. -/
def DeclaredType.Kept (n n' : DeclaredType) : Prop := n'.declared = n.declared

/-- A member keeps its declaration. -/
def Member.Kept (m m' : Member) : Prop := m'.declared = m.declared

/-- A base keeps its declaration, and the type that it names. -/
structure BaseEdge.Kept (b b' : BaseEdge) : Prop where
  declared : b'.declared = b.declared
  target : ∀ t, b.target = some t → b'.target = some t

/-- A template argument keeps its declaration, and the reference that it has. -/
structure TemplateArgument.Kept (a a' : TemplateArgument) : Prop where
  declared : a'.declared = a.declared
  reference : ∀ id, a.reference = some id → a'.reference = some id

theorem DeclaredType.Kept.refl (n : DeclaredType) : n.Kept n := rfl

theorem Member.Kept.refl (m : Member) : m.Kept m := rfl

theorem BaseEdge.Kept.refl (b : BaseEdge) : b.Kept b := ⟨rfl, fun _ ht => ht⟩

theorem TemplateArgument.Kept.refl (a : TemplateArgument) : a.Kept a := ⟨rfl, fun _ hid => hid⟩

theorem Reference.Kept.refl (r : Reference) : r.Kept r := ⟨rfl, fun _ _ => rfl⟩

theorem Reference.Kept.trans {r r' r'' : Reference} (h : r.Kept r') (h' : r'.Kept r'') :
    r.Kept r'' where
  declared := h'.declared.trans h.declared
  resolved found hfound := by
    obtain rfl := h.resolved found hfound
    exact h'.resolved found hfound

/-- A reference that is written only while it is unresolved is kept. -/
theorem Reference.Kept.of_write {r r' : Reference}
    (h : r' = r ∨ r.resolution = none ∧ ∃ w, r' = r.apply w) : r.Kept r' := by
  obtain rfl | ⟨hnone, w, rfl⟩ := h
  · exact .refl _
  · refine ⟨?_, fun found hfound => ?_⟩
    · cases w <;> rfl
    · cases hnone.symm.trans hfound

namespace Store

/-- Whatever `s` holds is in `s'` too. -/
structure Extends (s s' : Store) : Prop where
  types : s.types.Keeps DeclaredType.Kept s'.types
  references : s.references.Keeps Reference.Kept s'.references
  members : s.members.Keeps Member.Kept s'.members
  bases : s.bases.Keeps BaseEdge.Kept s'.bases
  arguments : s.arguments.Keeps TemplateArgument.Kept s'.arguments
  typedefs : s.typedefs.Keeps Eq s'.typedefs

variable {s s' : Store}

theorem Extends.refl (s : Store) : s.Extends s where
  types := .refl DeclaredType.Kept.refl _
  references := .refl Reference.Kept.refl _
  members := .refl Member.Kept.refl _
  bases := .refl BaseEdge.Kept.refl _
  arguments := .refl TemplateArgument.Kept.refl _
  typedefs := .refl Eq.refl _

theorem Extends.trans {s'' : Store} (h : s.Extends s') (h' : s'.Extends s'') : s.Extends s'' where
  types := h.types.trans (fun _ _ _ hab hbc => hbc.trans hab) h'.types
  references := h.references.trans (fun _ _ _ => .trans) h'.references
  members := h.members.trans (fun _ _ _ hab hbc => hbc.trans hab) h'.members
  bases := h.bases.trans (fun _ _ _ hab hbc =>
    ⟨hbc.declared.trans hab.declared, fun t ht => hbc.target t (hab.target t ht)⟩) h'.bases
  arguments := h.arguments.trans (fun _ _ _ hab hbc =>
    ⟨hbc.declared.trans hab.declared, fun id hid => hbc.reference id (hab.reference id hid)⟩)
    h'.arguments
  typedefs := h.typedefs.trans (fun _ _ _ => .trans) h'.typedefs

/-- Staging writes and giving out numbers change no table. -/
theorem Stages.extends (h : s.Stages s') : s.Extends s' := by
  obtain ⟨b, n, -, rfl⟩ := h
  exact { Extends.refl s with }

/-! ## Declarations -/

/-- An entity that is filed under a fresh number takes no other one's place. -/
theorem Numbered.extends_grows (h : s.Numbered) (hs : s.Grows s') : s.Extends s' := by
  cases hs with
  | number e => exact { Extends.refl s with }
  | reference =>
    exact { Extends.refl s with
      references := Table.keeps_insert Reference.Kept.refl h.fresh_reference _ }
  | type =>
    exact { Extends.refl s with
      types := Table.keeps_insert DeclaredType.Kept.refl h.fresh_type _ }
  | member =>
    exact { Extends.refl s with
      members := Table.keeps_insert Member.Kept.refl h.fresh_member _ }
  | base =>
    exact { Extends.refl s with
      bases := Table.keeps_insert BaseEdge.Kept.refl h.fresh_base _ }
  | argument =>
    exact { Extends.refl s with
      arguments := Table.keeps_insert TemplateArgument.Kept.refl h.fresh_argument _ }
  | typedef =>
    exact { Extends.refl s with
      typedefs := Table.keeps_insert Eq.refl h.fresh_typedef _ }

theorem Sound.extends_declares (h : s.Sound) (hs : s.Declares s') : s.Extends s' := by
  induction hs with
  | refl => exact .refl s
  | tail hbefore hstep ih => exact ih.trans ((h.declares hbefore).extends_grows hstep)

/-! ## Flushes -/

theorem Numbered.extends_committed (h : s.Numbered) : s.Extends s.committed where
  types id n hn := by
    obtain ⟨n', hn', hdeclared, -⟩ := size_committed hn
    exact ⟨n', hn', hdeclared⟩
  references id r hr := by
    obtain ⟨r', hr', -, hwrite⟩ := resolution_committed (h.find?_created.2 (.inl hr))
    exact ⟨r', hr', .of_write hwrite⟩
  members id m hm := by
    obtain ⟨m', hm', hdeclared, -⟩ := offset_committed hm
    exact ⟨m', hm', hdeclared⟩
  bases id b hb := by
    obtain ⟨b', hb', hdeclared, htarget⟩ := target_committed hb
    exact ⟨b', hb', hdeclared, fun t ht => by rw [htarget, ht, Option.some_or]⟩
  arguments id a ha := by
    obtain ⟨a', ha', hdeclared, hreference⟩ := reference_committed ha
    exact ⟨a', ha', hdeclared, fun id hid => by rw [hreference, hid, Option.some_or]⟩
  typedefs := .refl Eq.refl _

/-- A flush keeps what is there, whether it commits its batch or refuses it. -/
theorem Numbered.extends_flush (h : s.Numbered) : s.Extends s.flush.value.2 := by
  by_cases ha : s.Admitted
  · rw [value_flush_of_admitted ha]
    exact h.extends_committed
  · obtain ⟨e, he⟩ := value_flush_of_not_admitted ha
    rw [he]
    exact { Extends.refl s with }

/-! ## Runs -/

/-- **Every operation keeps what is there.** -/
theorem Sound.extends_perform (h : s.Sound) (o : Operation) : s.Extends (s.perform o) := by
  rcases h.perform_cases o with hdeclares | ⟨s₁, hstages, hs₁, hstaged | hflush⟩
  · exact h.extends_declares hdeclares
  · exact hstaged ▸ hstages.extends
  · exact hflush ▸ hstages.extends.trans hs₁.extends_flush

theorem Leads.extends (h : s.Leads s') (hs : s.Sound) : s.Extends s' := by
  have hkeeps := h.keeps (P := fun t => t.Sound ∧ s.Extends t)
    (fun _ o ht => ⟨ht.1.perform o, ht.2.trans (ht.1.extends_perform o)⟩) ⟨hs, .refl s⟩
  exact hkeeps.2

/-- **Resolution is monotone.** Along every run of operations from there on, all that a store holds
stays, with what it has been resolved to. -/
theorem resolution_monotone (h : s.Reachable) (os : List Operation) :
    s.Extends (os.foldl perform s) :=
  (leads_foldl os s).extends h.sound

/-- A structure with one member, one base and one template argument, and a typedef. The references
of the member and of the typedef are 4 and 8. -/
def outline : Store :=
  [.addType { name := "Foo", kind := .struct }, .addType { name := "Bar", kind := .struct },
    .addType { name := "S", kind := .struct },
    .addMember ⟨3⟩ { name := "x", typeString := "Foo" }, .addBase ⟨3⟩ "Bar",
    .addArgument ⟨3⟩ "Foo", Operation.addTypedef "" "Alias" "int"].foldl perform empty

theorem reachable_outline : outline.Reachable := leads_foldl _ _

/-- A run with a batch that is refused, one that is discarded, and writes against what has been
committed. -/
def contested : List Operation :=
  [.stageResolutions [(⟨4⟩, .type ⟨1⟩)], .flush, .stageResolutions [(⟨4⟩, .type ⟨2⟩)], .flush,
    .stageReference (.ofTypeString ⟨0⟩ "Bar"), .stageLinks [(⟨7⟩, ⟨11⟩)], .discard,
    .stageBases [(⟨6⟩, ⟨1⟩)], .flush, .resolve 25, .layOut true]

theorem resolution_monotone_outline : (outline.perform (.resolve 25)).Reachable ∧
    (outline.perform (.resolve 25)).Extends
      (contested.foldl perform (outline.perform (.resolve 25))) ∧
    ((outline.perform (.resolve 25)).references.find? ⟨4⟩).bind (·.resolution) =
      some (.type ⟨1⟩) :=
  have hreachable := reachable_outline.perform (.resolve 25)
  ⟨hreachable, resolution_monotone hreachable contested, by decide +kernel⟩

end Store

end DeclGraph
