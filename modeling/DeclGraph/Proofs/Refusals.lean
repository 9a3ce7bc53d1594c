import DeclGraph.Proofs.Import

/-!
# Why an import fails

A document is refused for one reason only: two of its types, or two of its typedefs, have one
qualified name. Types are declared first, so a name that two types share is reported rather than
one that two typedefs share, and of several such names the one that is met again first. Nothing
else that a document may carry is a reason, however inconsistent it is: what the restoring flush
commits is always accepted.

* `Repeats`, `IsFirstRepeat`: a name that two records share, and the one that is met again first.
* `Store.declareEach_cases`: declaring each of a list of records, where names are refused.
* `Document.refused_iff`: **import fails just on names that occur twice.**
-/

namespace DeclGraph

/-! ## Names that occur twice -/

section Repeats

variable {ρ : Type} {name : ρ → String} {rs : List ρ}

/-- Two of the records have one name. -/
def Repeats (name : ρ → String) (rs : List ρ) : Prop :=
  ∃ (i j : Nat) (a b : ρ), i < j ∧ rs[i]? = some a ∧ rs[j]? = some b ∧ name a = name b

/-- The name of the first record that has the name of one before it. -/
def IsFirstRepeat (name : ρ → String) (rs : List ρ) (n : String) : Prop :=
  ∃ before r after, rs = before ++ r :: after ∧ (before.map name).Nodup ∧
    name r ∈ before.map name ∧ n = name r

theorem repeats_iff : Repeats name rs ↔ ¬(rs.map name).Nodup := by
  rw [List.nodup_iff_getElem?_ne_getElem?]
  constructor
  · rintro ⟨i, j, a, b, hij, ha, hb, hname⟩ hne
    obtain ⟨hj, -⟩ := List.getElem?_eq_some_iff.1 hb
    refine hne i j hij (by rwa [List.length_map]) ?_
    rw [List.getElem?_map, List.getElem?_map, ha, hb, Option.map_some, Option.map_some, hname]
  · intro h
    push Not at h
    obtain ⟨i, j, hij, hj, heq⟩ := h
    rw [List.length_map] at hj
    rw [List.getElem?_map, List.getElem?_map, List.getElem?_eq_getElem hj,
      List.getElem?_eq_getElem (Nat.lt_trans hij hj)] at heq
    exact ⟨i, j, _, _, hij, List.getElem?_eq_getElem _, List.getElem?_eq_getElem _,
      Option.some.inj heq⟩

theorem IsFirstRepeat.repeats {n : String} (h : IsFirstRepeat name rs n) : Repeats name rs := by
  obtain ⟨before, r, after, rfl, -, hmem, -⟩ := h
  rw [repeats_iff, List.map_append, List.map_cons]
  exact fun hnodup => List.disjoint_of_nodup_append hnodup hmem List.mem_cons_self

end Repeats

/-! ## Declaring under names -/

namespace Store

section Declare

variable {α ι : Type} {declare : Store → α → Except StoreError ι × Store}
  {names : Store → List String} {name : α → String} {refusal : String → StoreError}

/-- Declarations that are refused just if their name has been given, and otherwise give it. -/
structure RefusesNames (declare : Store → α → Except StoreError ι × Store)
    (names : Store → List String) (name : α → String) (refusal : String → StoreError) : Prop where
  refused : ∀ {s a}, name a ∈ names s → ∃ s', declare s a = (.error (refusal (name a)), s')
  accepted : ∀ {s a}, name a ∉ names s →
    ∃ id s', declare s a = (.ok id, s') ∧ names s' = names s ++ [name a]

/-- Each of a list of records is declared, or the first is refused whose name has been given. -/
theorem declareEach_cases (h : RefusesNames declare names name refusal) (as : List α) :
    ∀ {s : Store}, (names s).Nodup →
      ((names s ++ as.map name).Nodup ∧
        ∃ declared s', declareEach declare s as = .ok (declared, s')) ∨
      ∃ before a after, as = before ++ a :: after ∧ (names s ++ before.map name).Nodup ∧
        name a ∈ names s ++ before.map name ∧
        declareEach declare s as = .error (refusal (name a)) := by
  -- on the records, for all stores: the first one moves its name to those of the store
  induction as with
  | nil => exact fun {s} hs => .inl ⟨by simpa using hs, [], s, rfl⟩
  | cons a as ih =>
    intro s hs
    by_cases hname : name a ∈ names s
    · obtain ⟨s', hdeclare⟩ := h.refused hname
      refine .inr ⟨[], a, as, rfl, by simpa using hs, by simpa using hname, ?_⟩
      rw [declareEach, hdeclare]
    · obtain ⟨id, s₁, hdeclare, hnames⟩ := h.accepted hname
      have hgrown : (names s₁).Nodup := by
        rw [hnames, ← List.concat_eq_append]
        exact List.Nodup.concat hname hs
      rcases ih hgrown with
        ⟨hnodup, declared, s', hrest⟩ | ⟨before, b, after, rfl, hnodup, hmem, hrest⟩
      · refine .inl ⟨by simpa [hnames] using hnodup, (id, a) :: declared, s', ?_⟩
        rw [declareEach, hdeclare]
        simp only [hrest]
        rfl
      · refine .inr ⟨a :: before, b, after, rfl, by simpa [hnames] using hnodup,
          by simpa [hnames] using hmem, ?_⟩
        rw [declareEach, hdeclare]
        simp only [hrest]
        rfl

/-- Where no name has been given, it is the first name that is met again. -/
theorem declareEach_of_no_names (h : RefusesNames declare names name refusal) (as : List α)
    {s : Store} (hs : names s = []) :
    (¬Repeats name as ∧ ∃ declared s', declareEach declare s as = .ok (declared, s')) ∨
      ∃ n, IsFirstRepeat name as n ∧ declareEach declare s as = .error (refusal n) := by
  rcases declareEach_cases h as (s := s) (by rw [hs]; exact .nil) with
    ⟨hnodup, hok⟩ | ⟨before, a, after, heq, hnodup, hmem, herror⟩
  · rw [hs, List.nil_append] at hnodup
    exact .inl ⟨fun hrepeats => repeats_iff.1 hrepeats hnodup, hok⟩
  · rw [hs, List.nil_append] at hnodup hmem
    exact .inr ⟨name a, ⟨before, a, after, heq, hnodup, hmem, rfl⟩, herror⟩

end Declare

theorem refusesNames_declareType :
    RefusesNames declareType (·.byName.keys) TypeRecord.qualifiedName .duplicateType where
  refused {s r} hname := by
    have hcontains : s.byName.contains r.qualifiedName = true := Table.contains_iff.2 hname
    rw [TypeRecord.qualifiedName] at hcontains
    simp only [declareType, addType, Store.fresh, TypeDecl.qualifiedName, hcontains, if_true]
    exact ⟨_, rfl⟩
  accepted {s r} hname :=
    ⟨_, _, addType_of_not_mem hname, Table.keys_insert hname _⟩

theorem refusesNames_declareTypedef : RefusesNames declareTypedef (·.typedefIndex.keys)
    TypedefRecord.qualifiedName .duplicateTypedef where
  refused {s r} hname := by
    have hcontains : s.typedefIndex.contains r.qualifiedName = true := Table.contains_iff.2 hname
    rw [TypedefRecord.qualifiedName] at hcontains
    simp only [declareTypedef, addTypedef, Store.fresh, addReference, Typedef.qualifiedName,
      hcontains, if_true]
    exact ⟨_, rfl⟩
  accepted {s r} hname :=
    ⟨_, _, addTypedef_of_not_mem hname, Table.keys_insert hname _⟩

/-- Types leave the names of typedefs alone. -/
theorem typedefIndex_declareEach_declareType {s s' : Store} {rs : List TypeRecord}
    {declared : List (TypeId × TypeRecord)}
    (h : declareEach declareType s rs = .ok (declared, s')) :
    s'.typedefIndex = s.typedefIndex := by
  have hrun : s.LeadsBy (fun o => ∃ d, o = .addType d) s' :=
    leadsBy_declareEach (fun s r => s.leadsBy_perform (o := .addType _) ⟨_, rfl⟩) rs h
  refine hrun.keeps (P := fun t => t.typedefIndex = s.typedefIndex) ?_ rfl
  rintro t _ ⟨d, rfl⟩ ht
  rw [← ht]
  by_cases hname : t.byName.contains d.qualifiedName = true
  · simp only [perform, addType, Store.fresh, hname, if_true]
  · simp only [perform, addType, Store.fresh, hname, Bool.false_eq_true, if_false]

end Store

/-! ## Documents -/

namespace Document

theorem distinct_iff {d : Document} : d.Distinct ↔
    ¬Repeats TypeRecord.qualifiedName d.types ∧
      ¬Repeats TypedefRecord.qualifiedName d.typedefs := by
  rw [repeats_iff, repeats_iff, not_not, not_not]
  exact ⟨fun h => ⟨h.types, h.typedefs⟩, fun h => ⟨h.1, h.2⟩⟩

variable (d : Document)

/-- A document is declared as a whole, or a name is met again, that of a type before that of a
typedef. -/
theorem declareDocument_cases :
    (d.Distinct ∧ ∃ f s, Store.declareDocument d = .ok (f.declared, s) ∧ s.Files f) ∨
      (∃ n, IsFirstRepeat TypeRecord.qualifiedName d.types n ∧
        Store.declareDocument d = .error (.duplicateType n)) ∨
      (¬Repeats TypeRecord.qualifiedName d.types ∧
        ∃ n, IsFirstRepeat TypedefRecord.qualifiedName d.typedefs n ∧
          Store.declareDocument d = .error (.duplicateTypedef n)) := by
  rcases Store.declareEach_of_no_names Store.refusesNames_declareType d.types
    (s := Store.empty) rfl with ⟨htypes, types, s₁, hok₁⟩ | ⟨n, hn, herror⟩
  · have hnone : s₁.typedefIndex.keys = [] := by
      rw [Store.typedefIndex_declareEach_declareType hok₁]
      rfl
    rcases Store.declareEach_of_no_names Store.refusesNames_declareTypedef d.typedefs hnone with
      ⟨htypedefs, -⟩ | ⟨n, hn, herror⟩
    · have hdistinct := distinct_iff.2 ⟨htypes, htypedefs⟩
      obtain ⟨f, s, hok, hfiles, -⟩ := hdistinct.exists_files
      exact .inl ⟨hdistinct, f, s, hok, hfiles⟩
    · refine .inr (.inr ⟨htypes, n, hn, ?_⟩)
      rw [Store.declareDocument, hok₁]
      simp only [bind, Except.bind, herror]
  · refine .inr (.inl ⟨n, hn, ?_⟩)
    rw [Store.declareDocument, herror]
    rfl

/-- A document is imported just if it is declared as a whole. -/
theorem toStore_cases :
    (d.Distinct ∧ ∃ s, d.toStore.value = .ok s) ∨
      (∃ n, IsFirstRepeat TypeRecord.qualifiedName d.types n ∧
        d.toStore.value = .error (.duplicateType n)) ∨
      (¬Repeats TypeRecord.qualifiedName d.types ∧
        ∃ n, IsFirstRepeat TypedefRecord.qualifiedName d.typedefs n ∧
          d.toStore.value = .error (.duplicateTypedef n)) := by
  have herror : ∀ {e}, Store.declareDocument d = .error e → d.toStore.value = .error e := by
    intro e h
    rw [toStore, h]
    rfl
  rcases d.declareDocument_cases with ⟨hdistinct, -⟩ | ⟨n, hn, h⟩ | ⟨htypes, n, hn, h⟩
  · obtain ⟨s, hs, -⟩ := hdistinct.exists_toStore
    exact .inl ⟨hdistinct, s, hs⟩
  · exact .inr (.inl ⟨n, hn, herror h⟩)
  · exact .inr (.inr ⟨htypes, n, hn, herror h⟩)

variable {d}

/-- What the restoring flush commits is accepted, whatever the records carry. -/
theorem exists_flush {declared : DeclaredDocument} {s : Store}
    (h : Store.declareDocument d = .ok (declared, s)) :
    ∃ changes, (s.stageRecorded declared).flush.value.1 = .ok changes := by
  rcases d.declareDocument_cases with ⟨-, f, s', hok, hfiles⟩ | ⟨n, -, herror⟩ | ⟨-, n, -, herror⟩
  · obtain ⟨rfl, rfl⟩ := Prod.mk.inj (Except.ok.inj (hok.symm.trans h))
    exact ⟨_, congrArg Prod.fst (Store.value_flush_of_admitted hfiles.admitted)⟩
  · cases herror.symm.trans h
  · cases herror.symm.trans h

/-- **Import fails just on names that occur twice**: on those of types first, and of several on the
one that is met again first. No document that is declared as a whole has its results refused. -/
theorem refused_iff (d : Document) :
    ((∃ e, d.toStore.value = .error e) ↔
      Repeats TypeRecord.qualifiedName d.types ∨
        Repeats TypedefRecord.qualifiedName d.typedefs) ∧
    (Repeats TypeRecord.qualifiedName d.types →
      ∃ n, IsFirstRepeat TypeRecord.qualifiedName d.types n ∧
        d.toStore.value = .error (.duplicateType n)) ∧
    (¬Repeats TypeRecord.qualifiedName d.types →
      Repeats TypedefRecord.qualifiedName d.typedefs →
        ∃ n, IsFirstRepeat TypedefRecord.qualifiedName d.typedefs n ∧
          d.toStore.value = .error (.duplicateTypedef n)) ∧
    ∀ declared s, Store.declareDocument d = .ok (declared, s) →
      ∃ changes, (s.stageRecorded declared).flush.value.1 = .ok changes := by
  refine and_assoc.1 (and_assoc.1 ⟨?_, fun _ _ h => exists_flush h⟩)
  rcases d.toStore_cases with ⟨hdistinct, s, hs⟩ | ⟨n, hn, herror⟩ | ⟨htypes, n, hn, herror⟩
  · obtain ⟨htypes, htypedefs⟩ := distinct_iff.1 hdistinct
    refine ⟨⟨⟨fun ⟨e, he⟩ => ?_, fun h => ?_⟩, fun h => absurd h htypes⟩,
      fun _ h => absurd h htypedefs⟩
    · cases hs.symm.trans he
    · exact absurd h (not_or.2 ⟨htypes, htypedefs⟩)
  · exact ⟨⟨⟨fun _ => .inl hn.repeats, fun _ => ⟨_, herror⟩⟩, fun _ => ⟨n, hn, herror⟩⟩,
      fun h => absurd hn.repeats h⟩
  · exact ⟨⟨⟨fun _ => .inr hn.repeats, fun _ => ⟨_, herror⟩⟩, fun h => absurd h htypes⟩,
      fun _ _ => ⟨n, hn, herror⟩⟩

/-- Two types of one name, spelled in two ways, and two typedefs. -/
def ambiguous : Document where
  types := [{ name := "S", space := "a", kind := .struct }, { name := "a :: S", kind := .union }]
  typedefs := [{ name := "A", target := "int" }, { name := "A", target := "a::S" }]

/-- A type that is its own base and member, and a typedef of a name that no type has. -/
def contradictory : Document where
  types :=
    [{ name := "S"
       kind := .struct
       size := some 0
       bases := [{ typeString := "int", resolved := some "S", primitive := true }]
       members :=
         [{ name := "m", typeString := "Gone*", offset := some 9, resolved := some "S"
            primitive := true }] }]
  typedefs := [{ name := "S", target := "S", resolved := some "Gone", primitive := true }]

theorem refused_iff_ambiguous :
    (∃ n, IsFirstRepeat TypeRecord.qualifiedName ambiguous.types n ∧
      ambiguous.toStore.value = .error (.duplicateType n)) ∧
    (∃ n, IsFirstRepeat TypedefRecord.qualifiedName ambiguous.typedefs n ∧
      (Document.toStore { ambiguous with types := [] }).value = .error (.duplicateTypedef n)) ∧
    ∃ declared s changes, Store.declareDocument contradictory = .ok (declared, s) ∧
      (s.stageRecorded declared).flush.value.1 = .ok changes := by
  have htypes : Repeats TypeRecord.qualifiedName ambiguous.types :=
    ⟨0, 1, _, _, by decide, rfl, rfl, by decide +kernel⟩
  have htypedefs : Repeats TypedefRecord.qualifiedName ambiguous.typedefs :=
    ⟨0, 1, _, _, by decide, rfl, rfl, by decide +kernel⟩
  have hnone : ¬Repeats TypeRecord.qualifiedName [] := by simp [repeats_iff]
  have hdistinct : contradictory.Distinct := ⟨by decide +kernel, by decide +kernel⟩
  obtain ⟨f, s, hok, -, -⟩ := hdistinct.exists_files
  obtain ⟨changes, hflush⟩ := (refused_iff contradictory).2.2.2 _ _ hok
  exact ⟨(refused_iff ambiguous).2.1 htypes,
    (refused_iff { ambiguous with types := [] }).2.2.1 hnone htypedefs,
    f.declared, s, changes, hok, hflush⟩

end Document

end DeclGraph
