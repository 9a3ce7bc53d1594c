import DeclGraph.Proofs.Persistence
import DeclGraph.Proofs.RoundTrip

/-!
# Type strings and their references

A member is declared by a type string, and gets the reference that the string declares. A typedef is
declared by such a reference alone. Both keep them for good: whatever is resolved later, what the
reference says of pointers and dimensions is what the string says.

* `Store.Spells`: a reference declares what a type string does.
* `Store.Legible`: all references of members and typedefs are spelled out.
* `Store.Reachable.legible`: **so they are in all stores that operations lead to.**
-/

namespace DeclGraph

namespace Store

/-- The reference is that of a type string, whatever it has been resolved to. -/
def Spells (s : Store) (id : ReferenceId) (typeString : String) : Prop :=
  ∃ r, s.references.find? id = some r ∧ r.declared = .ofTypeString id typeString

/-- Members have the references of their type strings, and typedefs have references of some. -/
structure Legible (s : Store) : Prop where
  members : ∀ m ∈ s.members.values, ∃ id, m.reference = some id ∧ s.Spells id m.typeString
  typedefs : ∀ t ∈ s.typedefs.values, ∃ typeString, s.Spells t.target typeString

variable {s s' : Store}

theorem Spells.extends {id : ReferenceId} {typeString : String} (h : s.Spells id typeString)
    (hs : s.Extends s') : s'.Spells id typeString := by
  obtain ⟨r, hr, hdeclared⟩ := h
  obtain ⟨r', hr', hkept⟩ := hs.references id r hr
  exact ⟨r', hr', hkept.declared.trans hdeclared⟩

theorem spells_insert {references : Table ReferenceId Reference} {id : ReferenceId}
    {typeString : String}
    (h : s.references = references.insert id (.ofTypeString id typeString)) :
    s.Spells id typeString := by
  refine ⟨.ofTypeString id typeString, ?_, rfl⟩
  rw [h, Table.find?_insert, if_pos rfl]

theorem legible_empty : empty.Legible where
  members _ h := by cases h
  typedefs _ h := by cases h

namespace Legible

variable (h : s.Legible)

include h

/-- What was legible stays so, and what is new has to be. -/
theorem grown (hs : s.Extends s')
    (hmembers : ∀ m ∈ s'.members.values, (∃ m₀ ∈ s.members.values, m.declared = m₀.declared) ∨
      ∃ id, m.reference = some id ∧ s'.Spells id m.typeString)
    (htypedefs : ∀ t ∈ s'.typedefs.values,
      t ∈ s.typedefs.values ∨ ∃ typeString, s'.Spells t.target typeString) : s'.Legible where
  members m hm := by
    rcases hmembers m hm with ⟨m₀, hm₀, hdeclared⟩ | hnew
    · obtain ⟨id, hid, hspells⟩ := h.members m₀ hm₀
      rw [Member.eq_of_declared hdeclared]
      exact ⟨id, hid, hspells.extends hs⟩
    · exact hnew
  typedefs t ht := by
    rcases htypedefs t ht with ht | hnew
    · obtain ⟨typeString, hspells⟩ := h.typedefs t ht
      exact ⟨typeString, hspells.extends hs⟩
    · exact hnew

/-- Operations that touch neither members nor typedefs. -/
theorem of_eq (hs : s.Extends s') (hmembers : s'.members = s.members)
    (htypedefs : s'.typedefs = s.typedefs) : s'.Legible :=
  h.grown hs (fun m hm => .inl ⟨m, hmembers ▸ hm, rfl⟩) fun _ ht => .inl (htypedefs ▸ ht)

theorem addMember (hs : s.Sound) (owner : TypeId) (d : MemberDecl) :
    (s.addMember owner d).2.Legible := by
  have hextends := hs.extends_perform (.addMember owner d)
  by_cases howner : s.types.contains owner = true
  · simp only [perform, Store.addMember, Store.fresh, addReference, howner, if_true]
      at hextends ⊢
    refine h.grown hextends (Table.forall_mem_values_insert (fun m hm => .inl ⟨m, hm, rfl⟩)
      (.inr ⟨_, rfl, spells_insert rfl⟩)) fun _ => .inl
  · simp only [perform, Store.addMember, Store.fresh, addReference, howner, Bool.false_eq_true,
      if_false] at hextends ⊢
    exact h.of_eq hextends rfl rfl

theorem addTypedef (hs : s.Sound) (space name target : String) :
    (s.addTypedef space name target).2.Legible := by
  have hextends := hs.extends_perform (.addTypedef space name target)
  generalize ht : (⟨⟨s.nextId + 1⟩, name, space, ⟨s.nextId⟩⟩ : Typedef) = t at hextends
  by_cases hname : s.typedefIndex.contains t.qualifiedName = true
  · simp only [perform, Store.addTypedef, Store.fresh, addReference, ht, hname, if_true]
      at hextends ⊢
    exact h.of_eq hextends rfl rfl
  · simp only [perform, Store.addTypedef, Store.fresh, addReference, ht, hname,
      Bool.false_eq_true, if_false] at hextends ⊢
    refine h.grown hextends (fun m hm => .inl ⟨m, hm, rfl⟩) (Table.forall_mem_values_insert
      (fun _ => .inl) (.inr ⟨target, ?_⟩))
    subst ht
    exact spells_insert rfl

theorem flush (hs : s.Sound) : s.flush.value.2.Legible := by
  have hextends := hs.extends_flush
  by_cases ha : s.Admitted
  · rw [value_flush_of_admitted ha] at hextends ⊢
    refine h.grown hextends (fun m hm => .inl ?_) fun _ => .inl
    rw [hs.values_members_committed] at hm
    obtain ⟨m₀, hm₀, rfl⟩ := List.mem_map.1 hm
    exact ⟨m₀, hm₀, rfl⟩
  · obtain ⟨e, he⟩ := value_flush_of_not_admitted ha
    rw [he] at hextends ⊢
    exact h.of_eq hextends rfl rfl

theorem stages (hs : s.Stages s') : s'.Legible := by
  have hextends := hs.extends
  obtain ⟨b, n, -, rfl⟩ := hs
  exact h.of_eq hextends rfl rfl

/-- **Every operation keeps references spelled out.** -/
theorem perform (hs : s.Sound) (o : Operation) : (s.perform o).Legible := by
  have hextends := hs.extends_perform o
  cases o with
  | addMember owner d => exact h.addMember hs owner d
  | addTypedef space name target => exact h.addTypedef hs space name target
  | addType d =>
    refine h.of_eq hextends ?_ ?_ <;>
      (simp only [Store.perform, Store.addType]; split <;> rfl)
  | addBase owner typeString =>
    refine h.of_eq hextends ?_ ?_ <;>
      (simp only [Store.perform, Store.addBase]; split <;> rfl)
  | addArgument owner typeString =>
    refine h.of_eq hextends ?_ ?_ <;>
      (simp only [Store.perform, Store.addArgument]; split <;> rfl)
  | stageReference r => exact h.of_eq hextends rfl rfl
  | stageResolutions ws => exact h.of_eq hextends rfl rfl
  | stageLinks ws => exact h.of_eq hextends rfl rfl
  | stageBases ws => exact h.of_eq hextends rfl rfl
  | stageOffsets ws => exact h.of_eq hextends rfl rfl
  | stageSizes ws => exact h.of_eq hextends rfl rfl
  | flush => exact h.flush hs
  | discard => exact h.of_eq hextends rfl rfl
  | resolve sampleLimit =>
    rw [Store.perform, store_runResolution]
    exact (h.stages s.stages_planResolution).flush hs.planResolution
  | layOut keepLayouts =>
    rw [Store.perform, store_runLayout]
    exact (h.stages (s.stages_stageLayouts _)).flush (hs.stageLayouts _)

end Legible

/-- **References are spelled out in all stores that operations lead to.** -/
theorem Reachable.legible (h : s.Reachable) : s.Legible := by
  have hkeeps := Leads.keeps (P := fun t => t.Sound ∧ t.Legible) h
    (fun _ o ht => ⟨ht.1.perform o, ht.2.perform ht.1 o⟩) ⟨sound_empty, legible_empty⟩
  exact hkeeps.2

end Store

end DeclGraph
