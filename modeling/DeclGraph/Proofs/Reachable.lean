import DeclGraph.Document.Import
import DeclGraph.Layout.Pass
import DeclGraph.Proofs.Representation
import DeclGraph.Resolve.Pass

/-!
# The stores there are

Every store comes from the empty one by declarations, staged writes, flushes and passes, in any
order and whether they succeed or not. A document is no other source of stores: importing it does
nothing that these operations do not do.

* `Store.perform`: one operation.
* `Store.Leads`, `Store.Reachable`: runs of operations. `Store.LeadsBy`: of some operations only.
* `Store.Stages`: what a pass does before its flush.
* `Store.Sound.perform_cases`: what an operation does, whichever it is.
* `Store.Reachable.sound`: **every store is sound**.
* `Document.exists_declared`, `Document.leadsBy_toStore`: which operations make the store of a
  document.
* `Document.reachable_toStore`: so that is sound, too.
-/

namespace DeclGraph

/-- What can be done with a store. -/
inductive Operation
  | addType (d : TypeDecl)
  | addMember (owner : TypeId) (d : MemberDecl)
  | addBase (owner : TypeId) (typeString : String)
  | addArgument (owner : TypeId) (typeString : String)
  | addTypedef (space name target : String)
  | stageResolutions (ws : List (ReferenceId × Resolution))
  | stageReference (r : Reference)
  | stageLinks (ws : List (ArgumentId × ReferenceId))
  | stageBases (ws : List (BaseId × TypeId))
  | stageOffsets (ws : List (MemberId × UInt32))
  | stageSizes (ws : List (TypeId × UInt32))
  | flush
  | discard
  | resolve (sampleLimit : Nat)
  | layOut (keepLayouts : Bool)

/-- Operations whose outcome documents can carry: only function pointers get signatures, and no
reference is staged as primitive that points at a type. -/
def Operation.Recordable : Operation → Prop
  | .addMember _ d => d.signature.isSome = true → d.isFunctionPointer = true
  | .stageReference r => r.Clear
  | _ => True

/-- The operations that declare something. -/
def Operation.IsDeclaration : Operation → Prop
  | .addType _ | .addMember _ _ | .addBase _ _ | .addArgument _ _ | .addTypedef _ _ _ => True
  | _ => False

/-- The operations that run a pass. -/
def Operation.IsPass : Operation → Prop
  | .resolve _ | .layOut _ => True
  | _ => False

namespace Store

/-- The store after an operation, which may have been refused. -/
def perform (s : Store) : Operation → Store
  | .addType d => (s.addType d).2
  | .addMember owner d => (s.addMember owner d).2
  | .addBase owner typeString => (s.addBase owner typeString).2
  | .addArgument owner typeString => (s.addArgument owner typeString).2
  | .addTypedef space name target => (s.addTypedef space name target).2
  | .stageResolutions ws => s.stageResolutions ws
  | .stageReference r => (s.stageReference r).2
  | .stageLinks ws => s.stageLinks ws
  | .stageBases ws => s.stageBases ws
  | .stageOffsets ws => s.stageOffsets ws
  | .stageSizes ws => s.stageSizes ws
  | .flush => s.flush.value.2
  | .discard => s.discard
  | .resolve sampleLimit => (s.runResolution sampleLimit).store
  | .layOut keepLayouts => (s.runLayout keepLayouts).store

/-- A run of operations leads from one store to another. -/
def Leads : Store → Store → Prop := Relation.ReflTransGen fun s s' => ∃ o, s' = s.perform o

/-- The stores that runs of operations lead to from the empty one. -/
def Reachable (s : Store) : Prop := empty.Leads s

variable {s s' : Store}

theorem Leads.perform (h : s.Leads s') (o : Operation) : s.Leads (s'.perform o) := h.tail ⟨o, rfl⟩

theorem leads_perform (s : Store) (o : Operation) : s.Leads (s.perform o) := .single ⟨o, rfl⟩

theorem leads_foldl (os : List Operation) (s : Store) : s.Leads (os.foldl Store.perform s) := by
  induction os generalizing s with
  | nil => exact .refl
  | cons o os ih => exact (s.leads_perform o).trans (ih (s.perform o))

/-- **What every operation keeps, every run of operations keeps.** -/
theorem Leads.keeps {P : Store → Prop} (h : s.Leads s') (hstep : ∀ t o, P t → P (t.perform o))
    (hs : P s) : P s' := by
  induction h with
  | refl => exact hs
  | tail _ hlast ih =>
    obtain ⟨o, rfl⟩ := hlast
    exact hstep _ o ih

/-- A run of operations for each of which `p` holds. -/
def LeadsBy (p : Operation → Prop) : Store → Store → Prop :=
  Relation.ReflTransGen fun s s' => ∃ o, p o ∧ s' = s.perform o

section LeadsBy

variable {p : Operation → Prop}

theorem LeadsBy.perform (h : s.LeadsBy p s') {o : Operation} (ho : p o) :
    s.LeadsBy p (s'.perform o) := h.tail ⟨o, ho, rfl⟩

theorem leadsBy_perform (s : Store) {o : Operation} (ho : p o) : s.LeadsBy p (s.perform o) :=
  .single ⟨o, ho, rfl⟩

theorem leadsBy_foldl (os : List Operation) (hos : ∀ o ∈ os, p o) (s : Store) :
    s.LeadsBy p (os.foldl Store.perform s) := by
  induction os generalizing s with
  | nil => exact .refl
  | cons o os ih =>
    rw [List.forall_mem_cons] at hos
    exact (s.leadsBy_perform hos.1).trans (ih hos.2 (s.perform o))

theorem LeadsBy.leads (h : s.LeadsBy p s') : s.Leads s' :=
  Relation.ReflTransGen.mono (fun _ _ ⟨o, _, heq⟩ => ⟨o, heq⟩) _ _ h

theorem LeadsBy.keeps {P : Store → Prop} (h : s.LeadsBy p s')
    (hstep : ∀ t o, p o → P t → P (t.perform o)) (hs : P s) : P s' := by
  induction h with
  | refl => exact hs
  | tail _ hlast ih =>
    obtain ⟨o, ho, rfl⟩ := hlast
    exact hstep _ o ho ih

end LeadsBy

/-! ## Passes -/

theorem store_runResolution (s : Store) (sampleLimit : Nat) :
    (s.runResolution sampleLimit).store = s.planResolution.store.flush.value.2 := by
  simp only [runResolution]
  split <;> simp_all

theorem store_runLayout (s : Store) (keepLayouts : Bool) :
    (s.runLayout keepLayouts).store = (s.stageLayouts s.layoutItems.1).flush.value.2 := by
  simp only [runLayout]
  split <;> simp_all

/-- All that has been done is to stage writes and to give numbers to staged references. -/
def Stages (s s' : Store) : Prop :=
  ∃ b n, s.nextId ≤ n ∧ s' = { s with staged := b, nextId := n }

theorem Stages.refl (s : Store) : s.Stages s := ⟨s.staged, s.nextId, Nat.le_refl _, rfl⟩

theorem Stages.trans {s'' : Store} (h : s.Stages s') (h' : s'.Stages s'') : s.Stages s'' := by
  obtain ⟨b, n, hn, rfl⟩ := h
  obtain ⟨b', n', hn', rfl⟩ := h'
  exact ⟨b', n', Nat.le_trans hn hn', rfl⟩

theorem stages_reference (s : Store) (r : Reference) : s.Stages (s.stageReference r).2 :=
  ⟨_, _, Nat.le_succ _, rfl⟩

/-- Dealing with a template argument stages at most one reference. -/
theorem store_step (h : Sharing) (a : TemplateArgument) : (h.step a).1.store = h.store ∨
    ∃ r, r.Clear ∧ (h.step a).1.store = (h.store.stageReference r).2 := by
  cases ha : a.reference with
  | some id =>
    simp only [Sharing.step, ha, Sharing.withReference]
    split <;> exact .inl rfl
  | none =>
    simp only [Sharing.step, ha, Sharing.withoutReference]
    split
    · exact .inl rfl
    · refine .inr ⟨_, ?_, rfl⟩
      cases (h.store.resolveNoting a.typeString (h.store.ownerScope a.owner).1).value with
      | none => exact .inl rfl
      | some found => exact Reference.clear_apply rfl found

theorem stages_sharing (as : List TemplateArgument) (h : Sharing) :
    h.store.Stages (h.run as).1.store := by
  induction as generalizing h with
  | nil => exact .refl _
  | cons a as ih =>
    refine Stages.trans ?_ (ih (h.step a).1)
    rcases store_step h a with hstep | ⟨r, -, hstep⟩
    · exact hstep ▸ .refl _
    · exact hstep ▸ h.store.stages_reference r

theorem stages_planResolution (s : Store) : s.Stages s.planResolution.store := by
  have hshared := stages_sharing s.unresolvedArguments { store := s }
  rw [Store.planResolution]
  generalize Sharing.run { store := s } s.unresolvedArguments = shared at hshared ⊢
  exact hshared.trans ⟨_, _, Nat.le_refl _, rfl⟩

theorem stages_stageLayouts (s : Store) (items : List LayoutItem) :
    s.Stages (s.stageLayouts items) := ⟨_, _, Nat.le_refl _, rfl⟩

theorem Sound.sharing (as : List TemplateArgument) (h : Sharing) (hs : h.store.Sound) :
    (h.run as).1.store.Sound := by
  induction as generalizing h with
  | nil => exact hs
  | cons a as ih =>
    refine ih (h.step a).1 ?_
    rcases store_step h a with hstep | ⟨r, -, hstep⟩
    · exact hstep ▸ hs
    · exact hstep ▸ hs.stageReference r

theorem Sound.planResolution (h : s.Sound) : s.planResolution.store.Sound := by
  have hshared := Sound.sharing s.unresolvedArguments { store := s } h
  rw [Store.planResolution]
  generalize Sharing.run { store := s } s.unresolvedArguments = shared at hshared
  have hresolutions : ∀ ws, (shared.1.store.stageResolutions ws).Sound :=
    fun _ => hshared.stage rfl
  have hbases : ∀ ws us, ((shared.1.store.stageResolutions ws).stageBases us).Sound :=
    fun ws _ => (hresolutions ws).stage rfl
  exact (hbases _ _).stage rfl

theorem Sound.stageLayouts (h : s.Sound) (items : List LayoutItem) :
    (s.stageLayouts items).Sound := by
  have hoffsets : ∀ ws, (s.stageOffsets ws).Sound := fun _ => h.stage rfl
  exact (hoffsets _).stage rfl

/-! ## Soundness -/

theorem declares_perform (s : Store) {o : Operation} (ho : o.IsDeclaration) :
    s.Declares (s.perform o) := by
  cases o with
  | addType d => exact s.declares_addType d
  | addMember owner d => exact s.declares_addMember owner d
  | addBase owner typeString => exact s.declares_addBase owner typeString
  | addArgument owner typeString => exact s.declares_addArgument owner typeString
  | addTypedef space name target => exact s.declares_addTypedef space name target
  | _ => exact ho.elim

/-- **What an operation does**: it declares something, or it stages writes, or it flushes what is
staged, a pass after having staged its own writes. -/
theorem Sound.perform_cases (h : s.Sound) (o : Operation) : s.Declares (s.perform o) ∨
    ∃ s₁, s.Stages s₁ ∧ s₁.Sound ∧ (s.perform o = s₁ ∨ s.perform o = s₁.flush.value.2) := by
  have hstages : ∀ b, s.Stages { s with staged := b } := fun b => ⟨b, s.nextId, Nat.le_refl _, rfl⟩
  cases o with
  | addType d => exact .inl (s.declares_perform trivial)
  | addMember owner d => exact .inl (s.declares_perform trivial)
  | addBase owner typeString => exact .inl (s.declares_perform trivial)
  | addArgument owner typeString => exact .inl (s.declares_perform trivial)
  | addTypedef space name target => exact .inl (s.declares_perform trivial)
  | stageReference r => exact .inr ⟨_, s.stages_reference r, h.stageReference r, .inl rfl⟩
  | stageResolutions ws => exact .inr ⟨s.stageResolutions ws, hstages _, h.stage rfl, .inl rfl⟩
  | stageLinks ws => exact .inr ⟨s.stageLinks ws, hstages _, h.stage rfl, .inl rfl⟩
  | stageBases ws => exact .inr ⟨s.stageBases ws, hstages _, h.stage rfl, .inl rfl⟩
  | stageOffsets ws => exact .inr ⟨s.stageOffsets ws, hstages _, h.stage rfl, .inl rfl⟩
  | stageSizes ws => exact .inr ⟨s.stageSizes ws, hstages _, h.stage rfl, .inl rfl⟩
  | flush => exact .inr ⟨s, .refl s, h, .inr rfl⟩
  | discard => exact .inr ⟨s.discard, hstages _, h.discard, .inl rfl⟩
  | resolve sampleLimit =>
    exact .inr ⟨_, s.stages_planResolution, h.planResolution, .inr (s.store_runResolution _)⟩
  | layOut keepLayouts =>
    exact .inr ⟨_, s.stages_stageLayouts _, h.stageLayouts _, .inr (s.store_runLayout _)⟩

/-- **Every operation leaves a sound store.** -/
theorem Sound.perform (h : s.Sound) (o : Operation) : (s.perform o).Sound := by
  rcases h.perform_cases o with hdeclares | ⟨s₁, -, hs₁, hstaged | hflush⟩
  · exact h.declares hdeclares
  · exact hstaged ▸ hs₁
  · exact hflush ▸ hs₁.flush

theorem Leads.sound (h : s.Leads s') (hs : s.Sound) : s'.Sound :=
  h.keeps (fun _ o ht => ht.perform o) hs

/-- **Every store is sound.** -/
theorem Reachable.sound (h : s.Reachable) : s.Sound := Leads.sound h sound_empty

/-! ## Documents -/

theorem exists_of_bind_eq_ok {ε α β : Type} {x : Except ε α} {f : α → Except ε β} {b : β}
    (h : x >>= f = .ok b) : ∃ a, x = .ok a ∧ f a = .ok b := by
  cases x with
  | error e => cases h
  | ok a => exact ⟨a, rfl, h⟩

theorem leadsBy_declareEach {p : Operation → Prop} {α ι : Type}
    {declare : Store → α → Except StoreError ι × Store}
    (hdeclare : ∀ (s : Store) a, s.LeadsBy p (declare s a).2) (as : List α)
    {declared : List (ι × α)} (h : declareEach declare s as = .ok (declared, s')) :
    s.LeadsBy p s' := by
  induction as generalizing s declared with
  | nil =>
    obtain ⟨-, rfl⟩ := Prod.mk.inj (Except.ok.inj h)
    exact .refl
  | cons a as ih =>
    have hstep := hdeclare s a
    rw [declareEach] at h
    split at h
    · cases h
    · next heq =>
      rw [heq] at hstep
      obtain ⟨⟨rest, s₁⟩, hrest, hok⟩ := exists_of_bind_eq_ok h
      obtain ⟨-, rfl⟩ := Prod.mk.inj (Except.ok.inj hok)
      exact hstep.trans (ih hrest)

section Declaring

variable {p : Operation → Prop} (hp : ∀ o : Operation, o.IsDeclaration → o.Recordable → p o)

include hp

theorem leadsBy_declareMember (owner : TypeId) (s : Store) (r : MemberRecord) :
    s.LeadsBy p (declareMember owner s r).2 := by
  refine s.leadsBy_perform (o := .addMember owner _) (hp _ trivial fun hsignature => ?_)
  dsimp only at hsignature
  by_contra hpointer
  rw [if_neg hpointer] at hsignature
  cases hsignature

theorem leadsBy_declareParts (rs : List (TypeId × TypeRecord)) {parts : DeclaredParts}
    (h : s.declareParts rs = .ok (parts, s')) : s.LeadsBy p s' := by
  induction rs generalizing s parts with
  | nil =>
    obtain ⟨-, rfl⟩ := Prod.mk.inj (Except.ok.inj h)
    exact .refl
  | cons r rs ih =>
    obtain ⟨id, r⟩ := r
    obtain ⟨⟨bases, s₁⟩, hbases, h⟩ := exists_of_bind_eq_ok h
    obtain ⟨⟨arguments, s₂⟩, harguments, h⟩ := exists_of_bind_eq_ok h
    obtain ⟨⟨members, s₃⟩, hmembers, h⟩ := exists_of_bind_eq_ok h
    obtain ⟨⟨rest, s₄⟩, hrest, h⟩ := exists_of_bind_eq_ok h
    obtain ⟨-, rfl⟩ := Prod.mk.inj (Except.ok.inj h)
    have h₁ : s.LeadsBy p s₁ := leadsBy_declareEach
      (fun s _ => s.leadsBy_perform (o := .addBase id _) (hp _ trivial trivial)) _ hbases
    have h₂ : s₁.LeadsBy p s₂ := leadsBy_declareEach
      (fun s _ => s.leadsBy_perform (o := .addArgument id _) (hp _ trivial trivial)) _ harguments
    have h₃ := leadsBy_declareEach (leadsBy_declareMember hp id) _ hmembers
    exact ((h₁.trans h₂).trans h₃).trans (ih hrest)

/-- A document is declared by operations whose outcome documents can carry. -/
theorem leadsBy_declareDocument {d : Document} {declared : DeclaredDocument}
    (h : declareDocument d = .ok (declared, s)) : empty.LeadsBy p s := by
  obtain ⟨⟨types, s₁⟩, htypes, h⟩ := exists_of_bind_eq_ok h
  obtain ⟨⟨typedefs, s₂⟩, htypedefs, h⟩ := exists_of_bind_eq_ok h
  obtain ⟨⟨parts, s₃⟩, hparts, h⟩ := exists_of_bind_eq_ok h
  obtain ⟨-, rfl⟩ := Prod.mk.inj (Except.ok.inj h)
  have h₁ : empty.LeadsBy p s₁ := leadsBy_declareEach
    (fun s _ => s.leadsBy_perform (o := .addType _) (hp _ trivial trivial)) _ htypes
  have h₂ : s₁.LeadsBy p s₂ := leadsBy_declareEach
    (fun s _ => s.leadsBy_perform (o := .addTypedef _ _ _) (hp _ trivial trivial)) _ htypedefs
  exact (h₁.trans h₂).trans (leadsBy_declareParts hp _ hparts)

end Declaring

theorem leadsBy_stageArguments (declared : List (ArgumentId × LinkRecord)) :
    s.LeadsBy Operation.Recordable (s.stageArguments declared).2 := by
  induction declared generalizing s with
  | nil => exact .refl
  | cons r rest ih =>
    obtain ⟨argument, r⟩ := r
    rw [stageArguments]
    split
    · exact ih
    · next found _ =>
      have hclear := Reference.clear_apply (r := .ofTypeString ⟨0⟩ r.typeString) rfl found
      exact (s.leadsBy_perform (o := .stageReference _) hclear).trans ih

theorem leadsBy_stageRecorded (s : Store) (declared : DeclaredDocument) :
    s.LeadsBy Operation.Recordable (s.stageRecorded declared) := by
  have h : s.LeadsBy Operation.Recordable (s.stageArguments declared.parts.arguments).2 :=
    leadsBy_stageArguments _
  have hresolutions := fun ws => h.perform (o := .stageResolutions ws) trivial
  have hbases := fun ws us => (hresolutions ws).perform (o := .stageBases us) trivial
  have hlinks := fun ws us vs => (hbases ws us).perform (o := .stageLinks vs) trivial
  have hoffsets := fun ws us vs xs => (hlinks ws us vs).perform (o := .stageOffsets xs) trivial
  exact (hoffsets _ _ _ _).perform (o := .stageSizes _) trivial

end Store

namespace Document

variable {d : Document} {s : Store}

/-- **The store of a document** has been declared, and what was recorded is staged; if that is
anything, it is flushed. -/
theorem exists_declared (h : d.toStore.value = .ok s) :
    ∃ declared s₀, Store.declareDocument d = .ok (declared, s₀) ∧
      (s = s₀.stageRecorded declared ∧ s.pending = 0 ∨
        s = (s₀.stageRecorded declared).flush.value.2) := by
  rw [toStore] at h
  cases hd : Store.declareDocument d with
  | error e => simp [hd] at h
  | ok declared =>
    obtain ⟨declared, s₀⟩ := declared
    refine ⟨declared, s₀, rfl, ?_⟩
    simp only [hd] at h
    split at h
    · next hpending =>
      obtain rfl := Except.ok.inj h
      exact .inl ⟨rfl, hpending⟩
    · rw [Noted.value_bind] at h
      cases hf : (s₀.stageRecorded declared).flush.value with
      | mk outcome s₁ =>
        cases outcome with
        | error e => simp [hf] at h
        | ok changes =>
          simp only [hf] at h
          exact .inr (Except.ok.inj h).symm

/-- A document is imported by operations whose outcome documents can carry. -/
theorem leadsBy_toStore (h : d.toStore.value = .ok s) :
    Store.empty.LeadsBy Operation.Recordable s := by
  obtain ⟨declared, s₀, hd, hmade⟩ := exists_declared h
  have hstaged := (Store.leadsBy_declareDocument (fun _ _ => id) hd).trans
    (s₀.leadsBy_stageRecorded declared)
  rcases hmade with ⟨rfl, -⟩ | rfl
  · exact hstaged
  · exact Store.LeadsBy.perform hstaged (o := .flush) trivial

/-- **The stores of documents are among those that operations lead to.** -/
theorem reachable_toStore (h : d.toStore.value = .ok s) : s.Reachable := (leadsBy_toStore h).leads

/-- Nothing is staged in the store of a document. -/
theorem staged_toStore (h : d.toStore.value = .ok s) : s.staged = {} := by
  obtain ⟨declared, s₀, -, ⟨-, hpending⟩ | rfl⟩ := exists_declared h
  · exact Store.staged_of_pending_eq_zero hpending
  · exact Store.staged_flush _

end Document

end DeclGraph
