import Mathlib.Data.List.Perm.Basic
import Mathlib.Logic.Relation
import DeclGraph.Proofs.Flush
import DeclGraph.Store.Declare

/-!
# The representation of a store

What holds between the tables, the indexes and the counter of a store, in three parts, and what
keeps it: the declaration of an entity, staging, and the commit of a batch that is admitted.

* `Store.Numbered`: every entity is filed under its number, and no number is used twice.
* `Store.Indexed`: the indexes list what the tables hold.
* `Store.Closed`: whatever an entity names is there.
* `Store.Grows`, `Store.Declares`: what a declaration does, whether it is refused or not.
* `Store.Sound`: all of it. `Store.Sound.grows` is the step for a declaration, and
  `Store.Sound.committed` the one for a flush.
-/

namespace DeclGraph

namespace Store

/-- The references of a store and those that are staged, in order. -/
def referenceIds (s : Store) : List ReferenceId :=
  s.references.keys ++ s.staged.references.map (·.id)

/-- The numbers in use, by kind of entity. -/
def numbersByKind (s : Store) : List (List Nat) :=
  [s.types.keys.map Id.val, s.referenceIds.map Id.val, s.members.keys.map Id.val,
    s.bases.keys.map Id.val, s.arguments.keys.map Id.val, s.typedefs.keys.map Id.val]

/-- The numbers in use. -/
def numbers (s : Store) : List Nat := s.numbersByKind.flatten

/-- Every entity is filed under its number, and the counter is above all numbers in use. -/
structure Numbered (s : Store) : Prop where
  nodup : s.numbers.Nodup
  lt : ∀ n ∈ s.numbers, n < s.nextId
  typeId : ∀ e ∈ s.types.entries, e.2.id = e.1
  referenceId : ∀ e ∈ s.references.entries, e.2.id = e.1
  memberId : ∀ e ∈ s.members.entries, e.2.id = e.1
  baseId : ∀ e ∈ s.bases.entries, e.2.id = e.1
  argumentId : ∀ e ∈ s.arguments.entries, e.2.id = e.1
  typedefId : ∀ e ∈ s.typedefs.entries, e.2.id = e.1

/-- The indexes list what the tables hold, in the order in which it came in. -/
structure Indexed (s : Store) : Prop where
  byName : s.byName.entries = s.types.entries.map fun e => (e.2.qualifiedName, e.1)
  byBaseName : ∀ name, s.byBaseName.list name =
    (s.types.entries.filter fun e => Name.canonical e.2.baseName = name).map Prod.fst
  membersByType : ∀ owner, s.membersByType.list owner =
    (s.members.entries.filter fun e => e.2.owner = owner).map Prod.fst
  basesByType : ∀ owner, s.basesByType.list owner =
    (s.bases.entries.filter fun e => e.2.owner = owner).map Prod.fst
  argumentsByType : ∀ owner, s.argumentsByType.list owner =
    (s.arguments.entries.filter fun e => e.2.owner = owner).map Prod.fst
  typedefIndex : s.typedefIndex.entries = s.typedefs.entries.map fun e => (e.2.qualifiedName, e.2)
  typeNames : s.byName.keys.Nodup
  typedefNames : s.typedefIndex.keys.Nodup

/-- Whatever an entity names is there. -/
structure Closed (s : Store) : Prop where
  memberOwner : ∀ e ∈ s.members.entries, e.2.owner ∈ s.types.keys
  memberReference : ∀ e ∈ s.members.entries, ∀ r, e.2.reference = some r → r ∈ s.references.keys
  baseOwner : ∀ e ∈ s.bases.entries, e.2.owner ∈ s.types.keys
  baseTarget : ∀ e ∈ s.bases.entries, ∀ t, e.2.target = some t → t ∈ s.types.keys
  argumentOwner : ∀ e ∈ s.arguments.entries, e.2.owner ∈ s.types.keys
  argumentReference : ∀ e ∈ s.arguments.entries, ∀ r, e.2.reference = some r →
    r ∈ s.references.keys
  typedefTarget : ∀ e ∈ s.typedefs.entries, e.2.target ∈ s.references.keys
  referenceTarget : ∀ e ∈ s.references.entries, ∀ t, e.2.target = some t → t ∈ s.types.keys

/-- What holds of every store that declarations, staged writes and flushes lead to. -/
structure Sound (s : Store) : Prop extends s.Numbered, s.Indexed, s.Closed

theorem sound_empty : empty.Sound := by
  constructor <;> constructor <;> first | decide | exact fun _ => rfl

/-! ## Numbers -/

namespace Numbered

variable {s s' : Store} (h : s.Numbered)

include h

theorem nodup_ids {e : Entity} {ids : List (Id e)} (hids : ids.map Id.val ∈ s.numbersByKind) :
    ids.Nodup := ((List.nodup_flatten.1 h.nodup).1 _ hids).of_map _

/-- The next number names nothing yet. -/
theorem next_not_mem {e : Entity} {ids : List (Id e)} (hids : ids.map Id.val ∈ s.numbersByKind) :
    (⟨s.nextId⟩ : Id e) ∉ ids := fun hmem =>
  absurd (h.lt _ (List.mem_flatten.2 ⟨_, hids, List.mem_map_of_mem hmem⟩)) (Nat.lt_irrefl _)

theorem types_nodup : s.types.keys.Nodup := h.nodup_ids (by simp [numbersByKind])

theorem created_nodup : s.referenceIds.Nodup := h.nodup_ids (by simp [numbersByKind])

theorem references_nodup : s.references.keys.Nodup := h.created_nodup.of_append_left

theorem members_nodup : s.members.keys.Nodup := h.nodup_ids (by simp [numbersByKind])

theorem bases_nodup : s.bases.keys.Nodup := h.nodup_ids (by simp [numbersByKind])

theorem arguments_nodup : s.arguments.keys.Nodup := h.nodup_ids (by simp [numbersByKind])

theorem typedefs_nodup : s.typedefs.keys.Nodup := h.nodup_ids (by simp [numbersByKind])

theorem fresh_type : (⟨s.nextId⟩ : TypeId) ∉ s.types.keys :=
  h.next_not_mem (by simp [numbersByKind])

theorem fresh_reference : (⟨s.nextId⟩ : ReferenceId) ∉ s.references.keys := by
  have hfresh : (⟨s.nextId⟩ : ReferenceId) ∉ s.referenceIds :=
    h.next_not_mem (by simp [numbersByKind])
  exact fun hmem => hfresh (List.mem_append_left _ hmem)

theorem fresh_member : (⟨s.nextId⟩ : MemberId) ∉ s.members.keys :=
  h.next_not_mem (by simp [numbersByKind])

theorem fresh_base : (⟨s.nextId⟩ : BaseId) ∉ s.bases.keys :=
  h.next_not_mem (by simp [numbersByKind])

theorem fresh_argument : (⟨s.nextId⟩ : ArgumentId) ∉ s.arguments.keys :=
  h.next_not_mem (by simp [numbersByKind])

theorem fresh_typedef : (⟨s.nextId⟩ : TypedefId) ∉ s.typedefs.keys :=
  h.next_not_mem (by simp [numbersByKind])

/-- One kind has one entity more, and its number was the next one. -/
theorem grow (before : List (List Nat)) {after : List (List Nat)} {ns ns' : List Nat}
    (hs : s.numbersByKind = before ++ ns :: after) (hs' : s'.numbersByKind = before ++ ns' :: after)
    (hns : ns'.Perm (s.nextId :: ns)) (hnext : s'.nextId = s.nextId + 1) :
    s'.numbers.Nodup ∧ ∀ n ∈ s'.numbers, n < s'.nextId := by
  have hnew : s.nextId ∉ s.numbers := fun hmem => absurd (h.lt _ hmem) (Nat.lt_irrefl _)
  have hperm : s'.numbers.Perm (s.nextId :: s.numbers) := by
    rw [numbers, numbers, hs, hs', List.flatten_append, List.flatten_append, List.flatten_cons,
      List.flatten_cons]
    exact ((hns.append_right _).append_left _).trans List.perm_middle
  refine ⟨hperm.nodup_iff.2 (List.nodup_cons.2 ⟨hnew, h.nodup⟩), fun n hn => ?_⟩
  rw [hnext]
  rcases List.mem_cons.1 (hperm.mem_iff.1 hn) with rfl | hn
  · exact Nat.lt_succ_self _
  · exact Nat.lt_succ_of_lt (h.lt n hn)

end Numbered

/-! ## Declarations -/

section Declare

variable (s : Store)

/-- The store with a reference more, which has the next number. -/
def withReference (r : Reference) : Store :=
  { s with references := s.references.insert ⟨s.nextId⟩ r, nextId := s.nextId + 1 }

/-- The store with a type more, which has the next number. -/
def withType (n : DeclaredType) : Store :=
  { s with
    types := s.types.insert ⟨s.nextId⟩ n
    byName := s.byName.insert n.qualifiedName ⟨s.nextId⟩
    byBaseName := s.byBaseName.push (Name.canonical n.baseName) ⟨s.nextId⟩
    nextId := s.nextId + 1 }

/-- The store with a member more, which has the next number. -/
def withMember (m : Member) : Store :=
  { s with
    members := s.members.insert ⟨s.nextId⟩ m
    membersByType := s.membersByType.push m.owner ⟨s.nextId⟩
    nextId := s.nextId + 1 }

/-- The store with a base more, which has the next number. -/
def withBase (b : BaseEdge) : Store :=
  { s with
    bases := s.bases.insert ⟨s.nextId⟩ b
    basesByType := s.basesByType.push b.owner ⟨s.nextId⟩
    nextId := s.nextId + 1 }

/-- The store with a template argument more, which has the next number. -/
def withArgument (a : TemplateArgument) : Store :=
  { s with
    arguments := s.arguments.insert ⟨s.nextId⟩ a
    argumentsByType := s.argumentsByType.push a.owner ⟨s.nextId⟩
    nextId := s.nextId + 1 }

/-- The store with a typedef more, which has the next number. -/
def withTypedef (t : Typedef) : Store :=
  { s with
    typedefs := s.typedefs.insert ⟨s.nextId⟩ t
    typedefIndex := s.typedefIndex.add t
    nextId := s.nextId + 1 }

variable {s} {s' : Store}

theorem forall_mem_entries_insert {κ α : Type} [DecidableEq κ] {t : Table κ α} {k : κ} {a : α}
    (hk : k ∉ t.keys) {P : κ × α → Prop} (h : ∀ e ∈ t.entries, P e) (ha : P (k, a)) :
    ∀ e ∈ (t.insert k a).entries, P e := by
  rw [Table.entries_insert hk]
  exact List.forall_mem_append.2 ⟨h, by simpa using ha⟩

theorem perm_of_keys {e : Entity} {ids ids' : List (Id e)} {k : Nat} (h : ids' = ids ++ [⟨k⟩]) :
    (ids'.map Id.val).Perm (k :: ids.map Id.val) := by
  rw [h, List.map_append]
  exact List.perm_append_singleton _ _

/-- An index by owner lists a new entity last among those of its owner. -/
theorem list_push_owner {e : Entity} {α κ : Type} [DecidableEq κ] {t : Table (Id e) α} {id : Id e}
    (owner : α → κ) (a : α) {index : Table κ (List (Id e))} (hid : id ∉ t.keys)
    (hindex : ∀ k, index.list k = (t.entries.filter fun e => owner e.2 = k).map Prod.fst) (k : κ) :
    (index.push (owner a) id).list k =
      ((t.insert id a).entries.filter fun e => owner e.2 = k).map Prod.fst := by
  rw [Table.list_push, Table.entries_insert hid, List.filter_append, List.map_append, hindex,
    hindex, List.filter_singleton]
  by_cases hk : k = owner a
  · simp [hk]
  · simp [hk, Ne.symm hk]

theorem nodup_keys_insert {κ α : Type} [DecidableEq κ] {t : Table κ α} {k : κ} (hk : k ∉ t.keys)
    (ht : t.keys.Nodup) (a : α) : (t.insert k a).keys.Nodup := by
  rw [Table.keys_insert hk]
  refine List.nodup_append.2 ⟨ht, by simp, fun l hl k' hk' => ?_⟩
  obtain rfl := List.mem_singleton.1 hk'
  rintro rfl
  exact hk hl

/-- Taking a number changes nothing else. -/
theorem Sound.fresh (h : s.Sound) (e : Entity) : (s.fresh e).2.Sound where
  __ := h
  nodup := h.nodup
  lt n hn := Nat.lt_succ_of_lt (h.lt n hn)

theorem Sound.withReference (h : s.Sound) {r : Reference} (hid : r.id = ⟨s.nextId⟩)
    (htarget : ∀ t, r.target = some t → t ∈ s.types.keys) : (s.withReference r).Sound := by
  have hkeys := Table.keys_insert h.fresh_reference r
  have hmem : ∀ id ∈ s.references.keys, id ∈ (s.withReference r).references.keys := by
    intro id hid
    rw [Store.withReference, hkeys]
    exact List.mem_append_left _ hid
  have hids : ((s.withReference r).referenceIds.map Id.val).Perm
      (s.nextId :: s.referenceIds.map Id.val) := by
    simp only [referenceIds, Store.withReference, hkeys, List.map_append, List.append_assoc]
    exact List.perm_middle
  have hnumbers : (s.withReference r).numbers.Nodup ∧ _ := h.grow [_] rfl rfl hids rfl
  exact {
    h with
    nodup := hnumbers.1
    lt := hnumbers.2
    referenceId := forall_mem_entries_insert h.fresh_reference h.referenceId hid
    memberReference := fun e he id hid => hmem id (h.memberReference e he id hid)
    argumentReference := fun e he id hid => hmem id (h.argumentReference e he id hid)
    typedefTarget := fun e he => hmem _ (h.typedefTarget e he)
    referenceTarget := forall_mem_entries_insert h.fresh_reference h.referenceTarget htarget }

theorem Sound.withType (h : s.Sound) {n : DeclaredType} (hid : n.id = ⟨s.nextId⟩)
    (hname : n.qualifiedName ∉ s.byName.keys) : (s.withType n).Sound := by
  have hkeys := Table.keys_insert h.fresh_type n
  have hmem : ∀ t ∈ s.types.keys, t ∈ (s.withType n).types.keys := by
    intro t ht
    rw [Store.withType, hkeys]
    exact List.mem_append_left _ ht
  have hnumbers : (s.withType n).numbers.Nodup ∧ _ :=
    h.grow [] rfl rfl (perm_of_keys hkeys) rfl
  exact {
    h with
    nodup := hnumbers.1
    lt := hnumbers.2
    typeId := forall_mem_entries_insert h.fresh_type h.typeId hid
    byName := by
      rw [Store.withType, Table.entries_insert hname, Table.entries_insert h.fresh_type, h.byName,
        List.map_append]
      rfl
    byBaseName := by
      intro name
      have hlist := list_push_owner (fun n : DeclaredType => Name.canonical n.baseName) n
        h.fresh_type h.byBaseName name
      simp only [Store.withType]
      exact hlist
    typeNames := nodup_keys_insert hname h.typeNames _
    memberOwner := fun e he => hmem _ (h.memberOwner e he)
    baseOwner := fun e he => hmem _ (h.baseOwner e he)
    baseTarget := fun e he t ht => hmem t (h.baseTarget e he t ht)
    argumentOwner := fun e he => hmem _ (h.argumentOwner e he)
    referenceTarget := fun e he t ht => hmem t (h.referenceTarget e he t ht) }

theorem Sound.withMember (h : s.Sound) {m : Member} (hid : m.id = ⟨s.nextId⟩)
    (howner : m.owner ∈ s.types.keys)
    (hreference : ∀ r, m.reference = some r → r ∈ s.references.keys) : (s.withMember m).Sound := by
  have hkeys := Table.keys_insert h.fresh_member m
  have hnumbers : (s.withMember m).numbers.Nodup ∧ _ :=
    h.grow [_, _] rfl rfl (perm_of_keys hkeys) rfl
  exact {
    h with
    nodup := hnumbers.1
    lt := hnumbers.2
    memberId := forall_mem_entries_insert h.fresh_member h.memberId hid
    membersByType := list_push_owner Member.owner m h.fresh_member h.membersByType
    memberOwner := forall_mem_entries_insert h.fresh_member h.memberOwner howner
    memberReference := forall_mem_entries_insert h.fresh_member h.memberReference hreference }

theorem Sound.withBase (h : s.Sound) {b : BaseEdge} (hid : b.id = ⟨s.nextId⟩)
    (howner : b.owner ∈ s.types.keys) (htarget : ∀ t, b.target = some t → t ∈ s.types.keys) :
    (s.withBase b).Sound := by
  have hkeys := Table.keys_insert h.fresh_base b
  have hnumbers : (s.withBase b).numbers.Nodup ∧ _ :=
    h.grow [_, _, _] rfl rfl (perm_of_keys hkeys) rfl
  exact {
    h with
    nodup := hnumbers.1
    lt := hnumbers.2
    baseId := forall_mem_entries_insert h.fresh_base h.baseId hid
    basesByType := list_push_owner BaseEdge.owner b h.fresh_base h.basesByType
    baseOwner := forall_mem_entries_insert h.fresh_base h.baseOwner howner
    baseTarget := forall_mem_entries_insert h.fresh_base h.baseTarget htarget }

theorem Sound.withArgument (h : s.Sound) {a : TemplateArgument} (hid : a.id = ⟨s.nextId⟩)
    (howner : a.owner ∈ s.types.keys)
    (hreference : ∀ r, a.reference = some r → r ∈ s.references.keys) :
    (s.withArgument a).Sound := by
  have hkeys := Table.keys_insert h.fresh_argument a
  have hnumbers : (s.withArgument a).numbers.Nodup ∧ _ :=
    h.grow [_, _, _, _] rfl rfl (perm_of_keys hkeys) rfl
  exact {
    h with
    nodup := hnumbers.1
    lt := hnumbers.2
    argumentId := forall_mem_entries_insert h.fresh_argument h.argumentId hid
    argumentsByType := list_push_owner TemplateArgument.owner a h.fresh_argument h.argumentsByType
    argumentOwner := forall_mem_entries_insert h.fresh_argument h.argumentOwner howner
    argumentReference :=
      forall_mem_entries_insert h.fresh_argument h.argumentReference hreference }

theorem Sound.withTypedef (h : s.Sound) {t : Typedef} (hid : t.id = ⟨s.nextId⟩)
    (hname : t.qualifiedName ∉ s.typedefIndex.keys) (htarget : t.target ∈ s.references.keys) :
    (s.withTypedef t).Sound := by
  have hkeys := Table.keys_insert h.fresh_typedef t
  have hnumbers : (s.withTypedef t).numbers.Nodup ∧ _ :=
    h.grow [_, _, _, _, _] rfl rfl (perm_of_keys hkeys) rfl
  exact {
    h with
    nodup := hnumbers.1
    lt := hnumbers.2
    typedefId := forall_mem_entries_insert h.fresh_typedef h.typedefId hid
    typedefIndex := by
      rw [Store.withTypedef, TypedefIndex.add, Table.entries_insert hname,
        Table.entries_insert h.fresh_typedef, h.typedefIndex, List.map_append]
      rfl
    typedefNames := nodup_keys_insert hname h.typedefNames _
    typedefTarget := forall_mem_entries_insert h.fresh_typedef h.typedefTarget htarget }

/-- What a declaration does at a time: it takes the next number, and files an entity under it or
none. -/
inductive Grows (s : Store) : Store → Prop
  | number (e : Entity) : s.Grows (s.fresh e).2
  | reference {r : Reference} (hid : r.id = ⟨s.nextId⟩)
      (htarget : ∀ t, r.target = some t → t ∈ s.types.keys) : s.Grows (s.withReference r)
  | type {n : DeclaredType} (hid : n.id = ⟨s.nextId⟩) (hname : n.qualifiedName ∉ s.byName.keys)
      (hqualified : n.qualifiedName = Name.canonical (Name.qualify n.space n.baseName)) :
      s.Grows (s.withType n)
  | member {m : Member} (hid : m.id = ⟨s.nextId⟩) (howner : m.owner ∈ s.types.keys)
      (hreference : ∀ r, m.reference = some r → r ∈ s.references.keys) : s.Grows (s.withMember m)
  | base {b : BaseEdge} (hid : b.id = ⟨s.nextId⟩) (howner : b.owner ∈ s.types.keys)
      (htarget : ∀ t, b.target = some t → t ∈ s.types.keys) : s.Grows (s.withBase b)
  | argument {a : TemplateArgument} (hid : a.id = ⟨s.nextId⟩) (howner : a.owner ∈ s.types.keys)
      (hreference : a.reference = none) : s.Grows (s.withArgument a)
  | typedef {t : Typedef} (hid : t.id = ⟨s.nextId⟩)
      (hname : t.qualifiedName ∉ s.typedefIndex.keys) (htarget : t.target ∈ s.references.keys) :
      s.Grows (s.withTypedef t)

/-- What a declaration does in all. -/
def Declares : Store → Store → Prop := Relation.ReflTransGen Grows

theorem Sound.grows (h : s.Sound) (hs : s.Grows s') : s'.Sound := by
  cases hs with
  | number e => exact h.fresh e
  | reference hid htarget => exact h.withReference hid htarget
  | type hid hname _ => exact h.withType hid hname
  | member hid howner hreference => exact h.withMember hid howner hreference
  | base hid howner htarget => exact h.withBase hid howner htarget
  | argument hid howner hreference => exact h.withArgument hid howner (by simp [hreference])
  | typedef hid hname htarget => exact h.withTypedef hid hname htarget

/-- **Declarations leave a sound store**, also those that are refused. -/
theorem Sound.declares (h : s.Sound) (hs : s.Declares s') : s'.Sound := by
  induction hs with
  | refl => exact h
  | tail _ hstep ih => exact ih.grows hstep

/-- Declarations stage nothing and commit nothing. -/
theorem staged_declares (h : s.Declares s') : s'.staged = s.staged := by
  induction h with
  | refl => rfl
  | tail _ hstep ih =>
    rw [← ih]
    cases hstep <;> rfl

variable (s)

theorem declares_addReference (typeString : String) :
    s.Declares (s.addReference typeString).2 :=
  .single (.reference rfl (by simp [Reference.ofTypeString]))

theorem mem_keys_addReference (typeString : String) :
    (s.addReference typeString).1 ∈ (s.addReference typeString).2.references.keys := by
  refine Table.mem_keys_of_find? (a := Reference.ofTypeString ⟨s.nextId⟩ typeString) ?_
  simp [addReference, Store.fresh, Table.find?_insert]

theorem declares_addType (d : TypeDecl) : s.Declares (s.addType d).2 := by
  by_cases hname : s.byName.contains d.qualifiedName = true
  · simp only [addType, Store.fresh, hname, if_true]
    exact .single (.number .type)
  · simp only [addType, Store.fresh, hname, Bool.false_eq_true, if_false]
    rw [Table.contains_iff] at hname
    exact .single (.type rfl hname rfl)

/-- The reference of a member stays, also if the member is refused. -/
theorem declares_addMember (owner : TypeId) (d : MemberDecl) :
    s.Declares (s.addMember owner d).2 := by
  refine (s.declares_addReference d.typeString).trans ?_
  have hmem := s.mem_keys_addReference d.typeString
  by_cases howner : s.types.contains owner = true
  · simp only [addMember, Store.fresh, addReference, howner, if_true]
    rw [Table.contains_iff] at howner
    refine .single (.member rfl howner fun r hr => ?_)
    obtain rfl := Option.some.inj hr
    exact hmem
  · simp only [addMember, Store.fresh, addReference, howner, Bool.false_eq_true, if_false]
    exact .single (.number .member)

theorem declares_addBase (owner : TypeId) (typeString : String) :
    s.Declares (s.addBase owner typeString).2 := by
  by_cases howner : s.types.contains owner = true
  · simp only [addBase, Store.fresh, howner, if_true]
    rw [Table.contains_iff] at howner
    exact .single (.base rfl howner (by simp))
  · simp only [addBase, Store.fresh, howner, Bool.false_eq_true, if_false]
    exact .single (.number .base)

theorem declares_addArgument (owner : TypeId) (typeString : String) :
    s.Declares (s.addArgument owner typeString).2 := by
  by_cases howner : s.types.contains owner = true
  · simp only [addArgument, Store.fresh, howner, if_true]
    rw [Table.contains_iff] at howner
    exact .single (.argument rfl howner (by simp))
  · simp only [addArgument, Store.fresh, howner, Bool.false_eq_true, if_false]
    exact .single (.number .argument)

/-- The reference of a typedef stays, also if the typedef is refused. -/
theorem declares_addTypedef (space name target : String) :
    s.Declares (s.addTypedef space name target).2 := by
  refine (s.declares_addReference target).trans ?_
  have hmem := s.mem_keys_addReference target
  generalize ht : (⟨⟨s.nextId + 1⟩, name, space, ⟨s.nextId⟩⟩ : Typedef) = t
  by_cases hname : s.typedefIndex.contains t.qualifiedName = true
  · simp only [addTypedef, Store.fresh, addReference, ht, hname, if_true]
    exact .single (.number .typedef)
  · simp only [addTypedef, Store.fresh, addReference, ht, hname, Bool.false_eq_true, if_false]
    rw [Table.contains_iff] at hname
    subst ht
    exact .single (.typedef rfl hname hmem)

end Declare

/-! ## Staging and committing -/

section Stage

variable {s : Store}

/-- Staging writes to entities that exist uses no number. -/
theorem Sound.stage (h : s.Sound) {b : Batch} (hb : b.references = s.staged.references) :
    ({ s with staged := b } : Store).Sound := by
  have hnumbers : ({ s with staged := b } : Store).numbers = s.numbers := by
    simp only [numbers, numbersByKind, referenceIds, hb]
  exact {
    h with
    nodup := hnumbers ▸ h.nodup
    lt := hnumbers ▸ h.lt }

theorem Sound.stageReference (h : s.Sound) (r : Reference) : (s.stageReference r).2.Sound := by
  have hids : ((s.stageReference r).2.referenceIds.map Id.val).Perm
      (s.nextId :: s.referenceIds.map Id.val) := by
    refine perm_of_keys ?_
    simp only [referenceIds, Store.stageReference, List.map_append, List.append_assoc]
    rfl
  have hnumbers : (s.stageReference r).2.numbers.Nodup ∧ _ := h.grow [_] rfl rfl hids rfl
  exact {
    h with
    nodup := hnumbers.1
    lt := hnumbers.2 }

theorem Sound.discard (h : s.Sound) : s.discard.Sound := by
  have hsub : s.discard.numbers.Sublist s.numbers := by
    have hids : (s.discard.referenceIds.map Id.val).Sublist (s.referenceIds.map Id.val) := by
      refine List.Sublist.map _ ?_
      rw [referenceIds, referenceIds]
      exact (List.Sublist.refl _).append (List.nil_sublist _)
    simp only [numbers, numbersByKind, List.flatten_cons]
    exact (List.Sublist.refl _).append (hids.append (List.Sublist.refl _))
  exact {
    h with
    nodup := h.nodup.sublist hsub
    lt := fun n hn => h.lt n (hsub.subset hn) }

theorem Numbered.entries_created (h : s.Numbered) : s.created.entries =
    s.references.entries ++ s.staged.references.map fun r => (r.id, r) :=
  Table.entries_foldl_insert _ _ h.created_nodup

theorem Numbered.keys_created (h : s.Numbered) : s.created.keys = s.referenceIds := by
  rw [Table.keys, h.entries_created, List.map_append, List.map_map]
  rfl

theorem Numbered.find?_created (h : s.Numbered) {id : ReferenceId} {r : Reference} :
    s.created.find? id = some r ↔
      s.references.find? id = some r ∨ r ∈ s.staged.references ∧ r.id = id := by
  have hnodup : s.created.keys.Nodup := h.keys_created ▸ h.created_nodup
  constructor
  · intro hr
    have hmem := Table.mem_entries_of_find? hr
    rw [h.entries_created, List.mem_append] at hmem
    rcases hmem with hmem | hmem
    · exact .inl (Table.find?_of_mem_entries h.references_nodup hmem)
    · obtain ⟨r', hr', heq⟩ := List.mem_map.1 hmem
      obtain ⟨rfl, rfl⟩ := Prod.mk.inj heq
      exact .inr ⟨hr', rfl⟩
  · intro hr
    refine Table.find?_of_mem_entries hnodup ?_
    rw [h.entries_created, List.mem_append]
    rcases hr with hr | ⟨hr, rfl⟩
    · exact .inl (Table.mem_entries_of_find? hr)
    · exact .inr (List.mem_map_of_mem hr)

/-- A reference that a write may name is there when the writes are applied. -/
theorem Numbered.exists_created (h : s.Numbered) {id : ReferenceId} (hid : s.Knows id) :
    ∃ r, s.created.find? id = some r := by
  rcases hid with hid | ⟨r, hr, hrid⟩
  · obtain ⟨r, hr⟩ := Table.exists_find? hid
    exact ⟨r, h.find?_created.2 (.inl hr)⟩
  · exact ⟨r, h.find?_created.2 (.inr ⟨hr, hrid⟩)⟩

/-- A staged reference is created under its number, and leaves those before it as they are. -/
theorem Sound.find?_created_stageReference (h : s.Sound) (r : Reference) :
    (s.stageReference r).2.created.find? ⟨s.nextId⟩ = some { r with id := ⟨s.nextId⟩ } ∧
      ∀ id r', s.created.find? id = some r' →
        (s.stageReference r).2.created.find? id = some r' := by
  have hs := h.stageReference r
  refine ⟨hs.find?_created.2 (.inr ⟨?_, rfl⟩), fun id r' hr' => hs.find?_created.2 ?_⟩
  · simp [Store.stageReference]
  · rcases h.find?_created.1 hr' with hr' | ⟨hr', hid⟩
    · exact .inl hr'
    · exact .inr ⟨List.mem_append_left _ hr', hid⟩

theorem Numbered.next_not_mem_created (h : s.Numbered) : s.created.find? ⟨s.nextId⟩ = none := by
  rw [Table.find?_eq_none_iff, h.keys_created]
  exact h.next_not_mem (by simp [numbersByKind])

theorem keys_types_committed : s.committed.types.keys = s.types.keys := Table.keys_writeAll _ _

theorem Numbered.keys_references_committed (h : s.Numbered) :
    s.committed.references.keys = s.referenceIds :=
  (Table.keys_writeAll _ _).trans h.keys_created

theorem Numbered.committed (h : s.Numbered) : s.committed.Numbered := by
  have hnumbers : s.committed.numbersByKind = s.numbersByKind := by
    have hmembers : s.committed.members.keys = s.members.keys := Table.keys_writeAll _ _
    have hbases : s.committed.bases.keys = s.bases.keys := Table.keys_writeAll _ _
    have harguments : s.committed.arguments.keys = s.arguments.keys := Table.keys_writeAll _ _
    -- staged references have their numbers already
    have hreferences : s.committed.referenceIds = s.referenceIds := by
      rw [referenceIds, h.keys_references_committed]
      exact List.append_nil _
    rw [numbersByKind, hreferences, keys_types_committed, hmembers, hbases, harguments]
    rfl
  have hcreated : ∀ e ∈ s.created.entries, e.2.id = e.1 := by
    rw [h.entries_created, List.forall_mem_append]
    refine ⟨h.referenceId, fun e he => ?_⟩
    obtain ⟨r, -, rfl⟩ := List.mem_map.1 he
    rfl
  exact {
    nodup := by rw [numbers, hnumbers]; exact h.nodup
    lt := by rw [numbers, hnumbers]; exact h.lt
    typeId := (lifts_types_committed h.types_nodup).forall_mem h.typeId fun _ _ _ hab ha =>
      (congrArg DeclaredType.id hab).trans ha
    referenceId := (lifts_references_committed (h.keys_created ▸ h.created_nodup)).forall_mem
      hcreated fun _ _ _ hab ha => (congrArg Reference.id hab).trans ha
    memberId := (lifts_members_committed h.members_nodup).forall_mem h.memberId
      fun _ _ _ hab ha => (congrArg Member.id hab).trans ha
    baseId := (lifts_bases_committed h.bases_nodup).forall_mem h.baseId fun _ _ _ hab ha =>
      (congrArg BaseEdge.id hab).trans ha
    argumentId := (lifts_arguments_committed h.arguments_nodup).forall_mem h.argumentId
      fun _ _ _ hab ha => (congrArg TemplateArgument.id hab).trans ha
    typedefId := h.typedefId }

/-! The values of a store in which a batch has been committed. -/

theorem Numbered.values_types_committed (h : s.Numbered) :
    s.committed.types.values = s.types.values.map fun n =>
      { n with size := (Table.lastWrite? s.staged.sizes n.id).or n.size } := by
  rw [Table.values_of_keys h.types_nodup keys_types_committed h.typeId]
  refine List.map_congr_left fun n hn => ?_
  obtain ⟨n', hn', hdeclared, hsize⟩ :=
    size_committed (Table.find?_of_mem_values h.types_nodup h.typeId hn)
  rw [hn', Option.getD_some, DeclaredType.eq_of_declared hdeclared, hsize]

theorem Numbered.values_members_committed (h : s.Numbered) :
    s.committed.members.values = s.members.values.map fun m =>
      { m with offset := (Table.lastWrite? s.staged.offsets m.id).or m.offset } := by
  have hkeys : s.committed.members.keys = s.members.keys := Table.keys_writeAll _ _
  rw [Table.values_of_keys h.members_nodup hkeys h.memberId]
  refine List.map_congr_left fun m hm => ?_
  obtain ⟨m', hm', hdeclared, hoffset⟩ :=
    offset_committed (Table.find?_of_mem_values h.members_nodup h.memberId hm)
  rw [hm', Option.getD_some, Member.eq_of_declared hdeclared, hoffset]

theorem Numbered.values_bases_committed (h : s.Numbered) :
    s.committed.bases.values = s.bases.values.map fun b =>
      { b with target := b.target.or (Table.firstWrite? s.staged.bases b.id) } := by
  have hkeys : s.committed.bases.keys = s.bases.keys := Table.keys_writeAll _ _
  rw [Table.values_of_keys h.bases_nodup hkeys h.baseId]
  refine List.map_congr_left fun b hb => ?_
  obtain ⟨b', hb', hdeclared, htarget⟩ :=
    target_committed (Table.find?_of_mem_values h.bases_nodup h.baseId hb)
  rw [hb', Option.getD_some, BaseEdge.eq_of_declared hdeclared, htarget]

theorem Numbered.values_arguments_committed (h : s.Numbered) :
    s.committed.arguments.values = s.arguments.values.map fun a =>
      { a with reference := a.reference.or (Table.firstWrite? s.staged.links a.id) } := by
  have hkeys : s.committed.arguments.keys = s.arguments.keys := Table.keys_writeAll _ _
  rw [Table.values_of_keys h.arguments_nodup hkeys h.argumentId]
  refine List.map_congr_left fun a ha => ?_
  obtain ⟨a', ha', hdeclared, hreference⟩ :=
    reference_committed (Table.find?_of_mem_values h.arguments_nodup h.argumentId ha)
  rw [ha', Option.getD_some, TemplateArgument.eq_of_declared hdeclared, hreference]

theorem Sound.indexed_committed (h : s.Sound) : s.committed.Indexed where
  byName := by
    have hnames := (lifts_types_committed h.types_nodup).map
      (g := fun e => (e.2.qualifiedName, e.1)) fun k a b hab => by
        rw [DeclaredType.qualifiedName_of_declared hab]
    exact h.byName.trans hnames.symm
  byBaseName name := by
    have hnames := (lifts_types_committed h.types_nodup).filter
      (p := fun n => Name.canonical n.baseName = name) fun a b hab => by
        rw [DeclaredType.baseName_of_declared hab]
    exact (h.byBaseName name).trans hnames.symm
  membersByType owner := by
    have howners := (lifts_members_committed h.members_nodup).filter
      (p := fun m => m.owner = owner) fun a b hab => by
        rw [Member.owner_of_declared hab]
    exact (h.membersByType owner).trans howners.symm
  basesByType owner := by
    have howners := (lifts_bases_committed h.bases_nodup).filter
      (p := fun b => b.owner = owner) fun a b hab => by
        rw [BaseEdge.owner_of_declared hab]
    exact (h.basesByType owner).trans howners.symm
  argumentsByType owner := by
    have howners := (lifts_arguments_committed h.arguments_nodup).filter
      (p := fun a => a.owner = owner) fun a b hab => by
        rw [TemplateArgument.owner_of_declared hab]
    exact (h.argumentsByType owner).trans howners.symm
  typedefIndex := h.typedefIndex
  typeNames := h.typeNames
  typedefNames := h.typedefNames

theorem Sound.closed_committed (h : s.Sound) (ha : s.Admitted) : s.committed.Closed := by
  -- a reference that is staged counts as one that is there, and is there afterwards
  have hknows : ∀ id, s.Knows id → id ∈ s.committed.references.keys := by
    rintro id (hid | ⟨r, hr, rfl⟩)
    · exact h.keys_references_committed ▸ List.mem_append_left _ hid
    · exact h.keys_references_committed ▸ List.mem_append_right _ (List.mem_map_of_mem hr)
  have hcreated : ∀ e ∈ s.created.entries, ∀ t, e.2.target = some t → t ∈ s.types.keys := by
    rw [h.entries_created, List.forall_mem_append]
    refine ⟨h.referenceTarget, fun e he => ?_⟩
    obtain ⟨r, hr, rfl⟩ := List.mem_map.1 he
    exact ha.references r hr
  exact {
    memberOwner := (lifts_members_committed h.members_nodup).forall_mem h.memberOwner
      fun _ a b hab hm => by
        rw [keys_types_committed]
        exact Member.owner_of_declared hab ▸ hm
    memberReference := (lifts_members_committed h.members_nodup).forall_mem h.memberReference
      fun _ a b hab hm r hr =>
        hknows r (.inl (hm r (Member.reference_of_declared hab ▸ hr)))
    baseOwner := (lifts_bases_committed h.bases_nodup).forall_mem h.baseOwner
      fun _ a b hab hb => by
        rw [keys_types_committed]
        exact BaseEdge.owner_of_declared hab ▸ hb
    baseTarget := by
      rw [keys_types_committed]
      refine Table.forall_mem_writeAll (Q := fun b => ∀ t, b.target = some t → t ∈ s.types.keys)
        h.bases_nodup _ h.baseTarget fun w hw a b _ hb t ht => ?_
      simp only [changeBase, Option.ite_none_right_eq_some] at hb
      obtain rfl := Option.some.inj hb.2
      obtain rfl := Option.some.inj ht
      exact (ha.bases w hw).1
    argumentOwner := (lifts_arguments_committed h.arguments_nodup).forall_mem h.argumentOwner
      fun _ a b hab harg => by
        rw [keys_types_committed]
        exact TemplateArgument.owner_of_declared hab ▸ harg
    argumentReference := by
      refine Table.forall_mem_writeAll
        (Q := fun a => ∀ r, a.reference = some r → r ∈ s.committed.references.keys)
        h.arguments_nodup _ (fun e he r hr => hknows r (.inl (h.argumentReference e he r hr)))
        fun w hw a b _ hb r hr => ?_
      simp only [changeArgument, Option.ite_none_right_eq_some] at hb
      obtain rfl := Option.some.inj hb.2
      obtain rfl := Option.some.inj hr
      exact hknows _ (ha.links w hw).2
    typedefTarget := fun e he => hknows _ (.inl (h.typedefTarget e he))
    referenceTarget := by
      rw [keys_types_committed]
      refine Table.forall_mem_writeAll (Q := fun r => ∀ t, r.target = some t → t ∈ s.types.keys)
        (h.keys_created ▸ h.created_nodup) _ hcreated
        fun w hw a b htarget hb t ht => ?_
      simp only [changeReference, Option.ite_none_right_eq_some] at hb
      obtain rfl := Option.some.inj hb.2
      cases hfound : w.2 with
      | primitive => exact htarget t (by simpa [Reference.apply, hfound] using ht)
      | type t' =>
        obtain rfl : t' = t := by simpa [Reference.apply, hfound] using ht
        exact ((ha.resolutions w hw).2 t' hfound).1 }

/-- **A batch that is admitted leaves a sound store.** -/
theorem Sound.committed (h : s.Sound) (ha : s.Admitted) : s.committed.Sound :=
  ⟨h.toNumbered.committed, h.indexed_committed, h.closed_committed ha⟩

theorem Sound.flush (h : s.Sound) : s.flush.value.2.Sound := by
  by_cases ha : s.Admitted
  · rw [value_flush_of_admitted ha]
    exact h.committed ha
  · obtain ⟨e, he⟩ := value_flush_of_not_admitted ha
    rw [he]
    exact h.discard

end Stage

end Store

end DeclGraph
