import DeclGraph.Proofs.Refusals
import DeclGraph.Proofs.RoundTrip

/-!
# What survives an import

A document is accepted just if no name occurs twice in it. What is exported then is the document
with its members in order, and with those resolutions whose names are types of the document. Of the
primitive mark and the resolution of a link, one survives at most.

* `Document.accepted_iff`: **which documents are accepted.**
* `Document.Keeps`: what one document keeps of another, record by record.
* `Document.keeps_toStore`: **the document of an imported one keeps it.**
-/

namespace DeclGraph

/-! ## Accepted documents -/

namespace Document

variable {d : Document} {s : Store}

/-- A name that occurs twice is refused. -/
theorem distinct_of_toStore (h : d.toStore.value = .ok s) : d.Distinct := by
  rcases d.toStore_cases with ⟨hdistinct, -⟩ | ⟨n, -, herror⟩ | ⟨-, n, -, herror⟩
  · exact hdistinct
  · cases herror.symm.trans h
  · cases herror.symm.trans h

/-- **A document is accepted just if its names are distinct.** -/
theorem accepted_iff : (∃ s, d.toStore.value = .ok s) ↔ d.Distinct := by
  refine ⟨fun ⟨s, h⟩ => distinct_of_toStore h, fun h => ?_⟩
  obtain ⟨s, hs, -⟩ := h.exists_toStore
  exact ⟨s, hs⟩

theorem ofStore_of_toStore (h : d.toStore.value = .ok s) : ofStore s = d.kept := by
  obtain ⟨s', hs', hkept⟩ := (distinct_of_toStore h).exists_toStore
  obtain rfl := Except.ok.inj (hs'.symm.trans h)
  exact hkept

end Document

/-! ## What a document keeps of another -/

section Keeps

variable (names : List String)

/-- A link keeps a resolution just if it is one of `names`, and the primitive mark just if it keeps
no resolution. -/
structure LinkRecord.Keeps (r r' : LinkRecord) : Prop where
  typeString : r'.typeString = r.typeString
  resolved : ∀ name, r'.resolved = some name ↔ r.resolved = some name ∧ name ∈ names
  primitive : r'.primitive = true ↔ r.primitive = true ∧ r'.resolved = none

/-- A base keeps a resolution like other links, and no primitive mark. -/
structure LinkRecord.KeepsBase (r r' : LinkRecord) : Prop where
  typeString : r'.typeString = r.typeString
  resolved : ∀ name, r'.resolved = some name ↔ r.resolved = some name ∧ name ∈ names
  primitive : r'.primitive = false

/-- A member, the `place`-th of its type, keeps all but a signature that is not that of a function
pointer. -/
structure MemberRecord.Keeps (r : MemberRecord) (place : Nat) (r' : MemberRecord) : Prop where
  link : r.link.Keeps names r'.link
  order : r'.order = some (r.order.getD (UInt32.ofNat place))
  signature : r'.signature = if r.isFunctionPointer then r.signature else none
  rest : r' = { r with
    order := r'.order
    signature := r'.signature
    resolved := r'.resolved
    primitive := r'.primitive }

/-- A typedef keeps its target as a link. -/
structure TypedefRecord.Keeps (r r' : TypedefRecord) : Prop where
  link : r.link.Keeps names r'.link
  rest : r' = { r with resolved := r'.resolved, primitive := r'.primitive }

/-- A list of members is sorted by order, and members of one order are as they were. -/
structure MemberRecord.Sorted (ms ms' : List MemberRecord) : Prop where
  perm : ms'.Perm ms
  ordered : ms'.Pairwise fun a b => (a.order.getD 0).toNat ≤ (b.order.getD 0).toNat
  stable : ∀ order, ms'.filter (·.order = order) = ms.filter (·.order = order)

/-- A type keeps its bases and template arguments in order, and sorts its members. -/
structure TypeRecord.Keeps (r r' : TypeRecord) : Prop where
  bases : List.Forall₂ (LinkRecord.KeepsBase names) r.bases r'.bases
  arguments : List.Forall₂ (LinkRecord.Keeps names) r.arguments r'.arguments
  members : ∃ ms, List.Forall₂ (fun p m => p.1.Keeps names p.2 m) r.members.zipIdx ms ∧
    MemberRecord.Sorted ms r'.members
  rest : r' = { r with bases := r'.bases, arguments := r'.arguments, members := r'.members }

end Keeps

/-- A document keeps its types and typedefs in order. The resolutions that it keeps are the
qualified names of its types. -/
structure Document.Keeps (d d' : Document) : Prop where
  types : List.Forall₂ (TypeRecord.Keeps d.names) d.types d'.types
  typedefs : List.Forall₂ (TypedefRecord.Keeps d.names) d.typedefs d'.typedefs

/-- A list is related to its image if each element is to its own. -/
theorem forall₂_map {α β : Type} {R : α → β → Prop} {f : α → β} {as : List α}
    (h : ∀ a ∈ as, R a (f a)) : List.Forall₂ R as (as.map f) :=
  List.forall₂_map_right_iff.2 (List.forall₂_same.2 h)

/-- Sorting by order leaves members of one order as they are. -/
theorem MemberRecord.sorted_mergeSort (ms : List MemberRecord) : MemberRecord.Sorted ms
    (ms.mergeSort fun a b => (a.order.getD 0).toNat ≤ (b.order.getD 0).toNat) := by
  have htrans : ∀ a b c : MemberRecord,
      decide ((a.order.getD 0).toNat ≤ (b.order.getD 0).toNat) = true →
      decide ((b.order.getD 0).toNat ≤ (c.order.getD 0).toNat) = true →
      decide ((a.order.getD 0).toNat ≤ (c.order.getD 0).toNat) = true := by
    simp only [decide_eq_true_eq]
    omega
  have htotal : ∀ a b : MemberRecord,
      (decide ((a.order.getD 0).toNat ≤ (b.order.getD 0).toNat) ||
        decide ((b.order.getD 0).toNat ≤ (a.order.getD 0).toNat)) = true := by
    simp only [Bool.or_eq_true, decide_eq_true_eq]
    omega
  refine ⟨List.mergeSort_perm .., (List.pairwise_mergeSort htrans htotal ms).imp of_decide_eq_true,
    fun order => ?_⟩
  -- the members of one order are sorted already, so that the sort keeps them in sequence
  have hsame : (ms.filter (·.order = order)).Pairwise fun a b =>
      decide ((a.order.getD 0).toNat ≤ (b.order.getD 0).toNat) = true := by
    refine List.pairwise_of_forall_mem_list fun a ha b hb => ?_
    have haorder := of_decide_eq_true (List.mem_filter.1 ha).2
    have hborder := of_decide_eq_true (List.mem_filter.1 hb).2
    rw [haorder, hborder]
    exact decide_eq_true (Nat.le_refl _)
  have hsub := (List.sublist_mergeSort htrans htotal hsame List.filter_sublist).filter
    (·.order = order)
  rw [List.filter_filter] at hsub
  simp only [Bool.and_self] at hsub
  refine (hsub.eq_of_length ?_).symm
  exact (((List.mergeSort_perm ms _).filter _).length_eq).symm

namespace Document

variable {d : Document} {s : Store}

theorem known?_eq_some {resolved : Option String} {name : String} :
    d.known? resolved = some name ↔ resolved = some name ∧ name ∈ d.names := by
  rw [known?, Option.filter_eq_some_iff, decide_eq_true_eq]

theorem keeps_keptLink (r : LinkRecord) : r.Keeps d.names (d.keptLink r) where
  typeString := rfl
  resolved _ := known?_eq_some
  primitive := by rw [keptLink, Bool.and_eq_true, Option.isNone_iff_eq_none]

theorem keeps_keptBase (r : LinkRecord) : r.KeepsBase d.names (d.keptBase r) where
  typeString := rfl
  resolved _ := known?_eq_some
  primitive := rfl

theorem keeps_keptMember (r : MemberRecord) (place : Nat) :
    r.Keeps d.names place (d.keptMember r place) where
  link := keeps_keptLink r.link
  order := rfl
  signature := rfl
  rest := rfl

theorem keeps_keptTypedef (r : TypedefRecord) : r.Keeps d.names (d.keptTypedef r) where
  link := keeps_keptLink r.link
  rest := rfl

theorem keeps_keptType (r : TypeRecord) :
    ({ r with bases := DeclGraph.inWordOrder r.bases
              arguments := DeclGraph.inWordOrder r.arguments } : TypeRecord).Keeps d.names
      (d.keptType r) where
  bases := by
    have hbases : (d.keptType r).bases = (DeclGraph.inWordOrder r.bases).map d.keptBase :=
      inWordOrder_map ..
    rw [hbases]
    exact forall₂_map fun b _ => keeps_keptBase b
  arguments := by
    have harguments : (d.keptType r).arguments =
        (DeclGraph.inWordOrder r.arguments).map d.keptLink := inWordOrder_map ..
    rw [harguments]
    exact forall₂_map fun a _ => keeps_keptLink a
  members := ⟨_, forall₂_map fun p _ => keeps_keptMember p.1 p.2, MemberRecord.sorted_mergeSort _⟩
  rest := rfl

theorem names_inWordOrder : d.inWordOrder.names = d.names := by
  rw [names, inWordOrder, List.map_map]
  rfl

theorem keeps_kept : d.inWordOrder.Keeps d.kept where
  types := by
    rw [names_inWordOrder]
    refine List.forall₂_map_left_iff.2 (forall₂_map fun r _ => keeps_keptType r)
  typedefs := by
    rw [names_inWordOrder]
    exact forall₂_map fun r _ => keeps_keptTypedef r

/-- **Import loses nothing that it can represent**: whatever document is accepted, the document of
the store keeps all its types and typedefs, with the resolutions that name its types. Positions of
bases and template arguments are words; types with more of them than words count have them in the
order of these words. -/
theorem keeps_toStore (h : d.toStore.value = .ok s) :
    d.inWordOrder.Keeps (ofStore s) ∧ (d.CountedInWords → d.Keeps (ofStore s)) := by
  have hkeeps : d.inWordOrder.Keeps (ofStore s) := ofStore_of_toStore h ▸ keeps_kept
  exact ⟨hkeeps, fun hcounted => hcounted.inWordOrder_eq ▸ hkeeps⟩

/-- A document with members out of order, a signature that is not that of a function pointer, names
that no type has, and marks beside names. -/
def untidy : Document where
  types :=
    [{ name := "S"
       space := "ns"
       kind := .struct
       size := some 8
       bases := [{ typeString := "Gone", resolved := some "Gone", primitive := true }]
       arguments :=
         [{ typeString := "int", primitive := true },
           { typeString := "S", resolved := some "ns::S", primitive := true }]
       members :=
         [{ name := "late", typeString := "int", order := some 9, offset := some 4
            primitive := true },
           { name := "early", typeString := "S*", signature := some 3
             resolved := some "ns::S" }] }]
  typedefs := [{ name := "T", target := "Gone", resolved := some "Gone", primitive := true }]

theorem keeps_toStore_untidy : untidy.CountedInWords ∧ ∃ s, untidy.toStore.value = .ok s ∧
    untidy.Keeps (ofStore s) ∧
    (ofStore s).typedefs = [{ name := "T", target := "Gone", primitive := true }] := by
  have hdistinct : untidy.Distinct := ⟨by decide +kernel, by decide +kernel⟩
  have hcounted : untidy.CountedInWords := by simp [CountedInWords, untidy, UInt32.size]
  obtain ⟨s, hs, hkept⟩ := hdistinct.exists_toStore
  refine ⟨hcounted, s, hs, (keeps_toStore hs).2 hcounted, ?_⟩
  rw [hkept]
  decide +kernel

end Document

end DeclGraph
