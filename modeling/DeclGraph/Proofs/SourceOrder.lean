import Mathlib.Data.List.Basic
import DeclGraph.Proofs.Representation

/-!
# Reading in source order

What a type declares is read by position, and at one position by identity. Where identities rise in
the order in which entities came in, that is the stable sort by position.

* `mergeSort_pairLe`: sorting by position and rising identity.
* `Store.Sound.membersOf_eq` and its neighbours: what a type declares, from the values of tables.
* `inWordOrder`: a list read by positions that are words.
-/

namespace DeclGraph

section Sorting

variable {α β : Type}

/-- Sorting asks for the order of the elements of the list only. -/
theorem mergeSort_congr {le le' : α → α → Bool} {as : List α}
    (h : ∀ a ∈ as, ∀ b ∈ as, le a b = le' a b) : as.mergeSort le = as.mergeSort le' := by
  have hmap := List.map_mergeSort (f := id) (s := le') h
  rwa [List.map_id, List.map_id] at hmap

/-- Numbers that rise along a list compare as the places do. -/
theorem le_iff_of_rises {id : α → Nat} {as : List α} (has : as.Pairwise fun a b => id a < id b)
    {a b : α × Nat} (ha : a ∈ as.zipIdx) (hb : b ∈ as.zipIdx) : id a.1 ≤ id b.1 ↔ a.2 ≤ b.2 := by
  obtain ⟨a, i⟩ := a
  obtain ⟨b, j⟩ := b
  obtain ⟨hi, hia⟩ := List.getElem?_eq_some_iff.1 (List.mem_zipIdx_iff_getElem?.1 ha)
  obtain ⟨hj, hjb⟩ := List.getElem?_eq_some_iff.1 (List.mem_zipIdx_iff_getElem?.1 hb)
  dsimp only at hi hj hia hjb ⊢
  subst hia hjb
  rw [List.pairwise_iff_getElem] at has
  rcases Nat.lt_trichotomy i j with hij | rfl | hij
  · exact iff_of_true (Nat.le_of_lt (has i j hi hj hij)) (Nat.le_of_lt hij)
  · exact iff_of_true (Nat.le_refl _) (Nat.le_refl _)
  · exact iff_of_false (Nat.not_le.2 (has j i hj hi hij)) (Nat.not_le.2 hij)

/-- **Where identities rise, sorting by order and identity is sorting by order**, which leaves
elements of one order as they stand. -/
theorem mergeSort_pairLe (order id : α → Nat) {as : List α}
    (has : as.Pairwise fun a b => id a < id b) :
    as.mergeSort (fun a b => pairLe (order a, id a) (order b, id b)) =
      as.mergeSort fun a b => order a ≤ order b := by
  have hplaces : ∀ a ∈ as.zipIdx, ∀ b ∈ as.zipIdx,
      pairLe (order a.1, id a.1) (order b.1, id b.1) =
        List.zipIdxLE (fun a b => order a ≤ order b) a b := by
    intro a ha b hb
    have hid := le_iff_of_rises has ha hb
    rw [Bool.eq_iff_iff, pairLe_iff, List.zipIdxLE]
    simp only [decide_eq_true_eq, hid]
    split
    · split
      · rw [decide_eq_true_eq]
        omega
      · simp only [iff_true]
        omega
    · simp only [Bool.false_eq_true, iff_false]
      omega
  calc as.mergeSort (fun a b => pairLe (order a, id a) (order b, id b))
    _ = (as.zipIdx.map Prod.fst).mergeSort
          fun a b => pairLe (order a, id a) (order b, id b) := by rw [List.zipIdx_map_fst]
    _ = (as.zipIdx.mergeSort
          fun a b => pairLe (order a.1, id a.1) (order b.1, id b.1)).map Prod.fst :=
        (List.map_mergeSort (f := Prod.fst) fun _ _ _ _ => rfl).symm
    _ = (as.zipIdx.mergeSort (List.zipIdxLE fun a b => order a ≤ order b)).map Prod.fst := by
        rw [mergeSort_congr hplaces]
    _ = as.mergeSort fun a b => order a ≤ order b := List.mergeSort_zipIdx

/-- The elements of a list by their positions, each of them as a word. -/
def inWordOrder (as : List α) : List α :=
  (as.zipIdx.mergeSort fun a b => (UInt32.ofNat a.2).toNat ≤ (UInt32.ofNat b.2).toNat).map Prod.fst

theorem inWordOrder_map (f : α → β) (as : List α) :
    inWordOrder (as.map f) = (inWordOrder as).map f := by
  rw [inWordOrder, inWordOrder, List.zipIdx_map, List.map_map, ← List.map_mergeSort
    (r := fun a b => decide ((UInt32.ofNat a.2).toNat ≤ (UInt32.ofNat b.2).toNat))
    fun _ _ _ _ => rfl, List.map_map]
  rfl

/-- Positions that fit into a word are in order. -/
theorem inWordOrder_of_length_le {as : List α} (h : as.length ≤ UInt32.size) :
    inWordOrder as = as := by
  have hrises : as.zipIdx.Pairwise fun a b => a.2 < b.2 := by
    rw [← List.pairwise_map (f := Prod.snd) (R := (· < ·)), List.zipIdx_map_snd]
    exact List.pairwise_lt_range'
  have hword : ∀ a ∈ as.zipIdx, (UInt32.ofNat a.2).toNat = a.2 := by
    intro a ha
    have hlt := (List.mem_zipIdx (x := a.1) (i := a.2) ha).2.1
    have hplace : a.2 < UInt32.size := by omega
    exact UInt32.toNat_ofNat_of_lt hplace
  rw [inWordOrder, List.mergeSort_of_pairwise, List.zipIdx_map_fst]
  refine hrises.imp_of_mem fun ha hb hab => ?_
  rw [decide_eq_true_eq, hword _ ha, hword _ hb]
  exact Nat.le_of_lt hab

end Sorting

/-- The values of some entries, looked up by their keys. -/
theorem Table.filterMap_find?_filter {κ α : Type} [DecidableEq κ] {t : Table κ α}
    (hnodup : t.keys.Nodup) (p : α → Bool) :
    ((t.entries.filter fun e => p e.2).map Prod.fst).filterMap t.find? = t.values.filter p := by
  have hfind : ∀ e ∈ t.entries.filter (fun e => p e.2), t.find? e.1 = some e.2 := fun e he =>
    find?_of_mem_entries hnodup (List.mem_of_mem_filter he)
  rw [List.filterMap_map, values, List.filter_map, ← List.filterMap_eq_map]
  exact List.filterMap_congr hfind

namespace Store

variable {s : Store} (h : s.Sound) (id : TypeId)

include h

theorem Sound.membersOf_eq (hrises : s.members.values.Pairwise (·.id.val < ·.id.val)) :
    s.membersOf id = (s.members.values.filter (·.owner = id)).mergeSort
      fun a b => a.order.toNat ≤ b.order.toNat := by
  rw [membersOf, h.membersByType, Table.filterMap_find?_filter h.members_nodup (·.owner = id)]
  exact mergeSort_pairLe (fun m : Member => m.order.toNat) (·.id.val)
    (hrises.sublist List.filter_sublist)

theorem Sound.basesOf_eq (hrises : s.bases.values.Pairwise (·.id.val < ·.id.val)) :
    s.basesOf id = (s.bases.values.filter (·.owner = id)).mergeSort
      fun a b => a.order.toNat ≤ b.order.toNat := by
  rw [basesOf, h.basesByType, Table.filterMap_find?_filter h.bases_nodup (·.owner = id)]
  exact mergeSort_pairLe (fun b : BaseEdge => b.order.toNat) (·.id.val)
    (hrises.sublist List.filter_sublist)

theorem Sound.argumentsOf_eq (hrises : s.arguments.values.Pairwise (·.id.val < ·.id.val)) :
    s.argumentsOf id = (s.arguments.values.filter (·.owner = id)).mergeSort
      fun a b => a.position.toNat ≤ b.position.toNat := by
  rw [argumentsOf, h.argumentsByType, Table.filterMap_find?_filter h.arguments_nodup (·.owner = id)]
  exact mergeSort_pairLe (fun a : TemplateArgument => a.position.toNat) (·.id.val)
    (hrises.sublist List.filter_sublist)

end Store

end DeclGraph
