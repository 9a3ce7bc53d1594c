import DeclGraph.Proofs.Hiding
import DeclGraph.Proofs.Memoised

/-!
# How large a member is

A layout looks the type of a member up by its name, and reads typedefs innermost scope first. The
resolution pass looks for types in all scopes before it looks for typedefs, and for primitives
before both. So a member takes the size of what it has been resolved to unless a typedef comes
between.

* `LayoutInput.Spans`: as many bytes as a number of elements take.
* `Store.Clear`: no typedef comes between.
* `member_sized`: what each member takes.
-/

namespace DeclGraph

open Name

/-! ## What a member is made of -/

namespace LayoutInput

variable {d : LayoutInput}

theorem value_elementExtent (r : Reference) (scope : String) : (d.elementExtent r scope).value =
    match d.find? r.base scope with
    | some (.typedef name) => (d.typedefExtent [] name).extent.getD ⟨r.leaf, []⟩
    | _ => ⟨r.leaf, []⟩ := by
  rw [elementExtent, Reference.base, Reference.leaf]
  -- what is noted on the way does not matter, so each case is that of the walk
  rcases d.find? (Declarator.parse r.typeString).canonicalBase scope with _ | _ | name
  · rcases r.target with _ | id
    · cases (Declarator.parse r.typeString).primitive <;> rfl
    · rfl
  · rcases r.target with _ | id
    · cases (Declarator.parse r.typeString).primitive <;> rfl
    · rfl
  · simp only
    generalize d.typedefExtent [] name = sizing
    obtain ⟨extent, repeated⟩ := sizing
    rcases r.target with _ | id
    · cases (Declarator.parse r.typeString).primitive <;> cases extent <;> cases repeated <;> rfl
    · cases extent <;> cases repeated <;> rfl

theorem value_memberExtent {m : Member} {r : Reference} (hpointer : m.isFunctionPointer = false)
    (hr : d.referenceOf m = r) (hindirect : r.isIndirect = false) (scope : String) :
    (d.memberExtent m scope).value = (d.elementExtent r scope).value.times r.elementCount := by
  subst hr
  simp only [memberExtent, hpointer, hindirect, Bool.false_eq_true, if_false]
  rfl

end LayoutInput

/-! ## What elements take -/

/-- The bytes of elements of a size, or of one of them. -/
def spanned (size : Nat) : Option UInt32 → Nat
  | none => size
  | some count => min (size * count.toNat) maxWord

namespace LayoutInput

variable (d : LayoutInput)

/-- The bytes that a leaf takes. Those of a type are the same after all requests. -/
def Takes (size : Nat) : Leaf → Prop
  | .type id => ∀ m, d.Reached .words m → ((d.metrics .words id).run m).1.size = size
  | .primitive p => p.size = size
  | .pointer => Metrics.pointer.size = size
  | .unsized => Metrics.fallback.size = size

/-- As many bytes as a number of elements take. -/
def Spans (leaf : Leaf) (count : Option UInt32) (bytes : Nat) : Prop :=
  ∃ size, d.Takes size leaf ∧ bytes = spanned size count

end LayoutInput

theorem size_metrics (leaf : Leaf) (count : Option UInt32) (x : Metrics)
    (alignment : Option UInt32) :
    (((Extent.times ⟨leaf, []⟩ count).metrics .words x).withRequested alignment).size =
      spanned x.size count := by
  have hrequested : ∀ y : Metrics, (y.withRequested alignment).size = y.size := by
    intro y
    rw [Metrics.withRequested]
    split <;> rfl
  rw [hrequested, Extent.metrics]
  cases count <;> rfl

/-- The slots of a plain layout are those of the members in order. -/
theorem LayoutInput.slots_plainLayoutOf (d : LayoutInput) (space : AddressSpace)
    (f : TypeId → Metrics) (n : DeclaredType) :
    List.Forall₂ (fun (m : Member) (slot : MemberSlot) => slot.memberId = m.id ∧
      slot.size = (d.plainMember space f n.qualifiedName m).metrics.size) (d.membersOf n.id)
        (d.plainLayoutOf space f n).members := by
  have hslots := slots_placeMembers space n.kind.isUnion
    (placeBases space 0 1 (d.plainBases f (d.basesOf n.id))).stop
    ((d.membersOf n.id).map (d.plainMember space f n.qualifiedName))
  rw [List.forall₂_map_left_iff] at hslots
  exact hslots

/-- A part of an acyclic type takes the same bytes after all requests. -/
theorem LayoutInput.takes_part {d : LayoutInput} (hd : d.Distinct) {id p : TypeId}
    (h : d.Acyclic id) (hp : d.HasPart id p) :
    d.Takes (d.plainParts .words id h p).size (.type p) := fun m hm => by
  rw [LayoutInput.plainParts_of_hasPart h hp, (hm.learnt hd p).plain (h.part hp)]

/-- The slot of a member takes as many bytes as the elements that the member is made of. -/
theorem LayoutInput.spans_plainMember {d : LayoutInput} (hd : d.Distinct) {id : TypeId}
    {n : DeclaredType} (hn : d.types.find? id = some n) (h : d.Acyclic id) {m : Member}
    (hm : m ∈ d.membersOf id) {leaf : Leaf} {count : Option UInt32}
    (he : (d.memberExtent m n.qualifiedName).value = Extent.times ⟨leaf, []⟩ count) :
    d.Spans leaf count
      (d.plainMember .words (d.plainParts .words id h) n.qualifiedName m).metrics.size := by
  have htakes : d.Takes (plainLeaf (d.plainParts .words id h) leaf).size leaf := by
    cases leaf with
    | type p =>
      refine takes_part hd h (hasPart_of_find? hn (List.mem_append_right _ ?_))
      rw [hd.id hn]
      exact List.mem_filterMap.2 ⟨m, hm, by rw [he]; rfl⟩
    | primitive p => cases p <;> rfl
    | pointer => rfl
    | unsized => rfl
  -- an alignment that was asked for changes no size
  refine ⟨_, htakes, ?_⟩
  have hleaf : (Extent.times ⟨leaf, []⟩ count).leaf = leaf := rfl
  simp only [plainMember, he, hleaf]
  exact size_metrics leaf count _ m.alignment

namespace Store

/-- A member in `scope` that is neither a function pointer nor indirect, with its reference. What
follows a `::` in its type string is declared in no scope. -/
structure Direct (s : Store) (scope : String) (m : Member) (r : Reference) : Prop where
  notPointer : m.isFunctionPointer = false
  reference : m.reference.bind s.references.find? = some r
  notIndirect : r.isIndirect = false
  unscoped : s.Unscoped r.base scope

/-- The leaf that a reference has been resolved to, if it names a type or spells a primitive. -/
def LinkedTo (r : Reference) : Leaf → Prop
  | .type id => r.resolution = some (.type id)
  | .primitive p => r.resolution = some .primitive ∧
      (Declarator.parse r.typeString).primitive = some p
  | .pointer | .unsized => False

theorem LinkedTo.leaf_eq {r : Reference} {leaf : Leaf} (h : LinkedTo r leaf) : r.leaf = leaf := by
  cases leaf with
  | type id =>
    have htarget : r.target = some id := target_of_resolution h
    rw [Reference.leaf, htarget]
  | primitive p =>
    obtain ⟨hres, hp⟩ := h
    have htarget : r.target = none := by
      rw [Reference.resolution] at hres
      cases ht : r.target with
      | none => rfl
      | some id => simp [ht] at hres
    rw [Reference.leaf, htarget, hp]
  | pointer => exact h.elim
  | unsized => exact h.elim

section Members

variable {s : Store} (h : s.Sound) {id : TypeId} {m : Member}

include h

theorem Sound.owner_of_mem_membersOf (hm : m ∈ s.membersOf id) : m.owner = id :=
  (h.mem_membersOf_iff.1 hm).2

variable (hplain : s.PlainTypedefs) {n : DeclaredType} (hn : s.types.find? id = some n)
  (hagg : n.isAggregate = true) (hm : m ∈ s.membersOf id) {scope : String} {r : Reference}
  (hr : s.Direct scope m r)

include hplain hn hagg hm hr

omit hplain in
theorem Direct.memberExtent_eq : (s.layoutInput.memberExtent m scope).value =
    Extent.times (match s.declared? r.base scope with
      | some (.typedef c) => (s.layoutInput.typedefExtent [] c).extent.getD ⟨r.leaf, []⟩
      | _ => ⟨r.leaf, []⟩) r.elementCount := by
  obtain ⟨rid, hrid, hfind⟩ := Option.bind_eq_some_iff.1 hr.reference
  have hreference : s.layoutInput.referenceOf m = r := by
    rw [LayoutInput.referenceOf, hrid, Option.bind_some,
      h.layout_memberReference hn hagg hm hrid, hfind, Option.getD_some]
  rw [LayoutInput.value_memberExtent hr.notPointer hreference hr.notIndirect,
    LayoutInput.value_elementExtent, h.layout_find? hr.unscoped]

/-- A member with the name of a typedef is made of what the typedef comes to. -/
theorem Direct.memberExtent_of_comes {c : String} {leaf : Leaf}
    (hd : s.declared? r.base scope = some (.typedef c)) (hc : s.Comes c leaf) :
    (s.layoutInput.memberExtent m scope).value = Extent.times ⟨leaf, []⟩ r.elementCount := by
  rw [hr.memberExtent_eq h hn hagg hm, hd]
  simp only [(extent_iff h hplain).2 ⟨leaf, rfl, hc⟩, Option.getD_some]

/-- Every other member is made of what its reference has been linked to. -/
theorem Direct.memberExtent_of_not_comes
    (hnot : ∀ c leaf, s.declared? r.base scope = some (.typedef c) → ¬s.Comes c leaf) :
    (s.layoutInput.memberExtent m scope).value = Extent.times ⟨r.leaf, []⟩ r.elementCount := by
  rw [hr.memberExtent_eq h hn hagg hm]
  rcases hd : s.declared? r.base scope with _ | _ | c
  · rfl
  · rfl
  · cases he : (s.layoutInput.typedefExtent [] c).extent with
    | none => simp only [he, Option.getD_none]
    | some e =>
      obtain ⟨leaf, -, hc⟩ := (extent_iff h hplain).1 he
      exact absurd hc (hnot c leaf hd)

end Members

/-- How many bytes a direct member of `s'` takes, whose scope is `scope`, after a pass over `s`. -/
structure SizedBy (s s' : Store) (scope : String) (m : Member) (r : Reference) (bytes : Nat) :
    Prop where
  /-- If the name of the member is that of a typedef, then what the typedef comes to. -/
  aliased : ∀ c leaf, s'.declared? r.base scope = some (.typedef c) → s'.Comes c leaf →
    s'.layoutInput.Spans leaf r.elementCount bytes
  /-- What the member has been resolved to otherwise. -/
  linked : (∀ c leaf, s'.declared? r.base scope = some (.typedef c) → ¬s'.Comes c leaf) →
    ∀ leaf, LinkedTo r leaf → s'.layoutInput.Spans leaf r.elementCount bytes
  /-- The two are the same if the pass has resolved the member and nothing is hidden. -/
  clear : s.staged = {} → ∀ r₀ c, m.reference.bind s.references.find? = some r₀ →
    s.declared? r₀.base scope = some (.typedef c) → s.Clear (s.memberPlace m r₀) c →
    ∀ leaf, LinkedTo r leaf → s'.layoutInput.Spans leaf r.elementCount bytes

/-- Where nothing is hidden, a member that the pass has resolved takes what it has been resolved
to. -/
theorem Clear.spans {s : Store} (h : s.Sound) (hstaged : s.staged = {}) {id : TypeId}
    {n : DeclaredType} (hn : s.resolved.types.find? id = some n) {m : Member}
    (hm : m ∈ s.resolved.membersOf id) {r r₀ : Reference}
    (hr : s.resolved.Direct n.qualifiedName m r)
    (hr₀ : m.reference.bind s.references.find? = some r₀) {c : String}
    (hd : s.declared? r₀.base n.qualifiedName = some (.typedef c))
    (hclear : s.Clear (s.memberPlace m r₀) c) {leaf : Leaf} (hleaf : LinkedTo r leaf) :
    s.resolved.declared? r.base n.qualifiedName = some (.typedef c) ∧ s.resolved.Comes c leaf := by
  have hsound := h.resolved hstaged
  have hsame := redeclares_resolved h hstaged
  obtain ⟨rid, hrid, hfind₀⟩ := Option.bind_eq_some_iff.1 hr₀
  have hreference : r₀.id = rid := h.referenceId _ (Table.mem_entries_of_find? hfind₀)
  have hfind : s.resolved.references.find? r₀.id = some r := by
    rw [hreference]
    have hbind := hr.reference
    rwa [hrid, Option.bind_some] at hbind
  -- the string of the reference is what it was
  have htext : r.typeString = r₀.typeString := by
    obtain ⟨r', hr', hkept, -⟩ :=
      h.find?_resolved hstaged (h.find?_created_shared hstaged (hreference ▸ hfind₀))
    obtain rfl := Option.some.inj (hfind.symm.trans hr')
    rcases hkept with rfl | ⟨-, w, rfl⟩
    · rfl
    · cases w <;> rfl
  have hbase : r.base = r₀.base := by rw [Reference.base, Reference.base, htext]
  have hscope : (s.memberPlace m r₀).scope = n.qualifiedName := by
    rw [(h.further_resolved hstaged).types] at hn
    rw [memberPlace, hsound.owner_of_mem_membersOf hm, hn]
    rfl
  refine ⟨by rw [hsame.declared?, hbase, hd], ?_⟩
  rw [← hscope] at hd
  cases leaf with
  | type t => exact hclear.comes h hstaged hd hfind hleaf
  | primitive p =>
    -- a name that spells a primitive is not read as a typedef
    have hspells := (hclear.unhidden c hd).1
    have hp := hleaf.2
    rw [htext] at hp
    change (Declarator.parse r₀.typeString).isPrimitiveLeaf = false at hspells
    rw [Declarator.primitive] at hp
    rw [Declarator.isPrimitiveLeaf, Bool.or_eq_false_iff] at hspells
    rw [if_neg (by simp [hspells.1])] at hp
    rw [Primitive.isName, hp] at hspells
    cases hspells.2
  | pointer => exact hleaf.elim
  | unsized => exact hleaf.elim

end Store

open Store in
/-- **A member takes what a typedef of its name comes to, and otherwise what it has been resolved
to**, whatever was requested before. -/
theorem member_sized {s : Store} (hs : s.Reachable) (k : Nat)
    (hplain : (s.runResolution k).store.PlainTypedefs) {id : TypeId} {n : DeclaredType}
    (hn : (s.runResolution k).store.types.find? id = some n) (hagg : n.isAggregate = true)
    (hacyclic : (s.runResolution k).store.layoutInput.Acyclic id) {memo : Memo}
    (hm : (s.runResolution k).store.layoutInput.Reached .words memo) :
    ∃ l, (((s.runResolution k).store.layoutInput.layout? .words id).run memo).1 = some l ∧
      List.Forall₂ (fun m slot => slot.memberId = m.id ∧
        ∀ r, (s.runResolution k).store.Direct n.qualifiedName m r →
          SizedBy s (s.runResolution k).store n.qualifiedName m r slot.size)
        ((s.runResolution k).store.membersOf id) l.members := by
  have hreachable : (s.runResolution k).store.Reachable := Leads.perform hs (.resolve k)
  have hresolved : s.staged = {} → (s.runResolution k).store = s.resolved := fun hstaged =>
    (run_resolved hs.sound hstaged k).1
  generalize (s.runResolution k).store = s' at *
  have h := hreachable.sound
  have hd := h.distinct
  refine ⟨s'.layoutInput.plainLayoutOf .words (s'.layoutInput.plainParts .words id hacyclic) n,
    ?_, ?_⟩
  · have hfind : s'.layoutInput.types.find? id = some n := hn
    rw [hm.layout?_eq_plain hd hacyclic, LayoutInput.plainLayout?, hfind]
    simp only [hagg, if_true]
  -- the layout is plain, so each slot can be compared with the member it is for
  have hslots := s'.layoutInput.slots_plainLayoutOf .words
    (s'.layoutInput.plainParts .words id hacyclic) n
  rw [h.typeId _ (Table.mem_entries_of_find? hn), h.layout_membersOf hn hagg] at hslots
  refine ((List.forall₂_and_left (p := (· ∈ s'.membersOf id)) _ _).2 ⟨fun _ hm => hm, hslots⟩).imp
    fun m slot ⟨hmem, hid, hbytes⟩ => ⟨hid, fun r hr => ?_⟩
  have hspans : ∀ leaf, (s'.layoutInput.memberExtent m n.qualifiedName).value =
      Extent.times ⟨leaf, []⟩ r.elementCount →
        s'.layoutInput.Spans leaf r.elementCount slot.size := by
    intro leaf he
    rw [hbytes]
    refine LayoutInput.spans_plainMember hd hn hacyclic ?_ he
    rwa [h.layout_membersOf hn hagg]
  have haliased : ∀ c leaf, s'.declared? r.base n.qualifiedName = some (.typedef c) →
      s'.Comes c leaf → s'.layoutInput.Spans leaf r.elementCount slot.size :=
    fun c leaf hdecl hc => hspans leaf (hr.memberExtent_of_comes h hplain hn hagg hmem hdecl hc)
  refine ⟨haliased, fun hnot leaf hleaf => hspans leaf ?_, ?_⟩
  · rw [hr.memberExtent_of_not_comes h hplain hn hagg hmem hnot, hleaf.leaf_eq]
  · intro hstaged r₀ c hr₀ hdecl hclear leaf hleaf
    obtain rfl := hresolved hstaged
    obtain ⟨hdecl', hc⟩ := hclear.spans hs.sound hstaged hn hmem hr hr₀ hdecl hleaf
    exact haliased c leaf hdecl' hc

/-- A struct with members that name a type behind a typedef of the same name, a primitive behind a
typedef, the type as it stands, and a typedef with nothing hidden. -/
def overlaid : Store :=
  [.addType { name := "Foo", kind := .struct },
    .addMember ⟨1⟩ { name := "x", typeString := "double", order := some 0 },
    Operation.addTypedef "" "DWORD" "double",
    Operation.addTypedef "" "Handle" "Foo",
    .addType { name := "S", space := "ns", kind := .struct },
    Operation.addTypedef "ns" "Foo" "int",
    .addMember ⟨8⟩ { name := "near", typeString := "Foo", order := some 0 },
    .addMember ⟨8⟩ { name := "word", typeString := "DWORD", order := some 1 },
    .addMember ⟨8⟩ { name := "far", typeString := "::Foo", order := some 2 },
    .addMember ⟨8⟩ { name := "pair", typeString := "Handle[2]", order := some 3 }].foldl
      Store.perform Store.empty

theorem reachable_overlaid : overlaid.Reachable := Store.leads_foldl _ _

/-- The store `overlaid` with what a pass finds for its references. -/
def relaid : Store :=
  { overlaid with
    references := (overlaid.references.writeAll Store.changeReference
      [(⟨2⟩, .primitive), (⟨11⟩, .type ⟨1⟩), (⟨13⟩, .primitive), (⟨15⟩, .type ⟨1⟩),
        (⟨17⟩, .type ⟨1⟩), (⟨4⟩, .primitive), (⟨6⟩, .type ⟨1⟩), (⟨9⟩, .primitive)]).1 }

theorem runResolution_overlaid : (overlaid.runResolution 25).store = relaid := by decide +kernel

/-- A member of the struct in `overlaid`. -/
def overlaidMember (id : MemberId) (name : String) (order : UInt32) (typeString : String)
    (reference : ReferenceId) : Member :=
  { id, name, order, typeString, owner := ⟨8⟩, reference := some reference, offset := none
    bitWidth := none, alignment := none, isFunctionPointer := false, signature := none }

/-- In `relaid` nothing has to be sorted, and the part of its struct has no parts. -/
theorem declared_relaid : relaid.Ordered ∧ relaid.PlainTypedefs ∧
    relaid.declaredInput.parts ⟨8⟩ = [⟨1⟩] ∧ relaid.declaredInput.parts ⟨1⟩ = [] ∧
    relaid.declaredMembers ⟨8⟩ =
      [overlaidMember ⟨12⟩ "near" 0 "Foo" ⟨11⟩, overlaidMember ⟨14⟩ "word" 1 "DWORD" ⟨13⟩,
        overlaidMember ⟨16⟩ "far" 2 "::Foo" ⟨15⟩,
        overlaidMember ⟨18⟩ "pair" 3 "Handle[2]" ⟨17⟩] := by decide +kernel

theorem layoutInput_relaid : relaid.layoutInput = relaid.declaredInput :=
  declared_relaid.1.layoutInput_eq

theorem acyclic_relaid : relaid.layoutInput.Acyclic ⟨8⟩ := by
  obtain ⟨-, -, houter, hinner, -⟩ := declared_relaid
  rw [← layoutInput_relaid] at houter hinner
  refine LayoutInput.acyclic_of_parts fun p hp => ?_
  rw [houter, List.mem_singleton] at hp
  subst hp
  exact LayoutInput.acyclic_of_parts (by simp [hinner])

theorem membersOf_relaid : relaid.membersOf ⟨8⟩ =
    [overlaidMember ⟨12⟩ "near" 0 "Foo" ⟨11⟩, overlaidMember ⟨14⟩ "word" 1 "DWORD" ⟨13⟩,
      overlaidMember ⟨16⟩ "far" 2 "::Foo" ⟨15⟩, overlaidMember ⟨18⟩ "pair" 3 "Handle[2]" ⟨17⟩] := by
  obtain ⟨-, -, -, -, hmembers⟩ := declared_relaid
  have hordered : relaid.membersOf ⟨8⟩ = relaid.declaredMembers ⟨8⟩ :=
    List.mergeSort_of_pairwise (by
      rw [← Store.declaredMembers, hmembers]
      decide)
  rw [hordered, hmembers]

theorem direct_relaid :
    relaid.Direct "ns::S" (overlaidMember ⟨12⟩ "near" 0 "Foo" ⟨11⟩)
        ((Reference.ofTypeString ⟨11⟩ "Foo").apply (.type ⟨1⟩)) ∧
      relaid.Direct "ns::S" (overlaidMember ⟨18⟩ "pair" 3 "Handle[2]" ⟨17⟩)
        ((Reference.ofTypeString ⟨17⟩ "Handle[2]").apply (.type ⟨1⟩)) := by
  constructor <;>
  exact
    { notPointer := rfl
      reference := by decide +kernel
      notIndirect := by decide +kernel
      unscoped := by decide +kernel }

theorem clear_pair : overlaid.Clear
    (overlaid.memberPlace (overlaidMember ⟨18⟩ "pair" 3 "Handle[2]" ⟨17⟩)
      (Reference.ofTypeString ⟨17⟩ "Handle[2]")) "Handle" where
  taken := by decide +kernel
  named := by decide +kernel
  canonical := by decide +kernel
  unhidden := fun _ _ => by decide +kernel
  ends := by decide +kernel
  chain := by
    -- the chain ends with its first typedef, whose target is a type
    have htarget : ∀ t ∈ overlaid.typedefIndex.find? "Handle",
        ∀ r ∈ overlaid.references.find? t.target, r.resolution = none ∧
          overlaid.declared? r.base t.space = some (.type ⟨1⟩) := by decide +kernel
    intro c hreach t r ha
    rcases Relation.ReflTransGen.cases_head hreach with rfl | ⟨next, ⟨t', r', ha', hnext⟩, -⟩
    · obtain ⟨hopen, htype⟩ := htarget t ha.typedef r ha.target
      refine ⟨hopen, fun c hc => ?_⟩
      cases htype.symm.trans hc
    · cases (htarget t' ha'.typedef r' ha'.target).2.symm.trans hnext

theorem comes_near : relaid.Comes "ns::Foo" (.primitive .i32) := by
  have htarget : ((relaid.typedefIndex.find? "ns::Foo").bind fun t =>
      (relaid.references.find? t.target).map fun r => (relaid.declared? r.base t.space, r.leaf)) =
        some (none, .primitive .i32) := by decide +kernel
  obtain ⟨t, ht, htarget⟩ := Option.bind_eq_some_iff.1 htarget
  obtain ⟨r, hr, hread⟩ := Option.map_eq_some_iff.1 htarget
  obtain ⟨hd, hleaf⟩ := Prod.mk.inj hread
  rw [← hleaf]
  exact .linked ⟨ht, hr⟩ hd (by simp [hleaf])

/-- The member `near` takes what the typedef of its name comes to, and `pair` what it has been
resolved to. -/
theorem member_sized_relaid : ∃ l near word far pair,
    ((relaid.layoutInput.layout? .words ⟨8⟩).run {}).1 = some l ∧
      l.members = [near, word, far, pair] ∧
      relaid.layoutInput.Spans (.primitive .i32) none near.size ∧
      relaid.layoutInput.Spans (.type ⟨1⟩) (some 2) pair.size := by
  have hfound : (relaid.types.find? ⟨8⟩).map (fun n => (n.isAggregate, n.qualifiedName)) =
      some (true, "ns::S") := by decide +kernel
  obtain ⟨n, hn, hfields⟩ := Option.map_eq_some_iff.1 hfound
  obtain ⟨hagg, hname⟩ := Prod.mk.inj hfields
  have hsized := @member_sized overlaid reachable_overlaid 25
  rw [runResolution_overlaid] at hsized
  obtain ⟨l, hl, hslots⟩ := hsized declared_relaid.2.1 hn hagg acyclic_relaid .fresh
  rw [membersOf_relaid, hname] at hslots
  obtain ⟨near, behind, ⟨-, hnear⟩, hbehind, hall⟩ := List.forall₂_cons_left_iff.1 hslots
  obtain ⟨word, others, -, hothers, rfl⟩ := List.forall₂_cons_left_iff.1 hbehind
  obtain ⟨far, last, -, hlast, rfl⟩ := List.forall₂_cons_left_iff.1 hothers
  obtain ⟨pair, tail, ⟨-, hpair⟩, htail, rfl⟩ := List.forall₂_cons_left_iff.1 hlast
  obtain rfl := List.forall₂_nil_left_iff.1 htail
  have hone : ((Reference.ofTypeString ⟨11⟩ "Foo").apply (.type ⟨1⟩)).elementCount = none := by
    decide +kernel
  have htwo : ((Reference.ofTypeString ⟨17⟩ "Handle[2]").apply (.type ⟨1⟩)).elementCount =
      some 2 := by decide +kernel
  refine ⟨l, near, word, far, pair, hl, hall, ?_, ?_⟩
  · rw [← hone]
    exact (hnear _ direct_relaid.1).aliased "ns::Foo" _ (by decide +kernel) comes_near
  · rw [← htwo]
    exact (hpair _ direct_relaid.2).clear rfl (Reference.ofTypeString ⟨17⟩ "Handle[2]") "Handle"
      (by decide +kernel) (by decide +kernel) clear_pair (.type ⟨1⟩) rfl

/-- A member does not always take what it has been resolved to: `near` and `far` have been resolved
to a type of eight bytes and take four, and `word` has been resolved to a primitive of four bytes
and takes eight. -/
theorem member_sized_not_as_resolved : overlaid.Reachable ∧ overlaid.staged = {} ∧
    (overlaid.runResolution 25).outcome.isOk = true ∧
    (overlaid.runResolution 25).store = relaid ∧
    (∀ t ∈ relaid.typedefs.values, ∀ r ∈ relaid.references.find? t.target,
      r.isIndirect = false ∧ r.isArray = false) ∧
    relaid.layoutInput.Acyclic ⟨8⟩ ∧
    (relaid.membersOf ⟨8⟩).map (fun m => (m.isFunctionPointer, m.typeString)) =
      [(false, "Foo"), (false, "DWORD"), (false, "::Foo"), (false, "Handle[2]")] ∧
    (relaid.membersOf ⟨8⟩).map (fun m => (m.reference.bind relaid.references.find?).map fun r =>
      (r.isIndirect, r.arraySize, r.resolution)) =
        [some (false, none, some (.type ⟨1⟩)), some (false, none, some .primitive),
          some (false, none, some (.type ⟨1⟩)), some (false, some 2, some (.type ⟨1⟩))] ∧
    (Declarator.parse "DWORD").primitive = some .u32 ∧ Primitive.u32.size = 4 ∧
    ((relaid.layoutInput.metrics .words ⟨1⟩).run {}).1.size = 8 ∧
    ((relaid.layoutInput.layout? .words ⟨8⟩).run {}).1.map (fun l => l.members.map (·.size)) =
      some [4, 8, 4, 16] := by
  refine ⟨reachable_overlaid, rfl, by decide +kernel, runResolution_overlaid, by decide +kernel,
    acyclic_relaid, ?_, ?_, by decide +kernel, by decide, ?_, ?_⟩
  · rw [membersOf_relaid]
    rfl
  · rw [membersOf_relaid]
    decide +kernel
  · rw [layoutInput_relaid]
    decide +kernel
  · rw [layoutInput_relaid]
    decide +kernel

end DeclGraph
