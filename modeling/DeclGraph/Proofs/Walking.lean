import DeclGraph.Proofs.AliasChains
import DeclGraph.Proofs.Chains

/-!
# Where a walk over typedefs ends

A walk goes from typedef to typedef, and is told by the names it has met when to stop. What it does
can be said without it: from each typedef the chain goes on to one other, so all that is left to say
is how far it is followed.

* `Lookup.Answers`: what the target of a typedef is resolved to, read where the typedef is declared.
* `Lookup.next?`: the typedef that a chain goes on to, and `Lookup.after`: the chain of a name.
* `Lookup.Walks`: how far a chain is followed, up to the first answer, and through no name twice.
* `Lookup.walk_iff`: **a walk finds the answer at the end of this part of the chain**, and visits
  just the names on it. It is no longer than there are typedefs.
-/

namespace DeclGraph

open Name

namespace Lookup

variable (l : Lookup)

/-- What the target of a typedef is resolved to: what it has been resolved to already, else the type
of its name in the innermost scope around the typedef, else the primitive that it spells. -/
inductive Answers (name : String) : Reference → Prop
  | resolved {t r} (ht : l.typedefs.find? name = some t) (hr : l.reference? t.target = some r)
    (hsome : r.resolution.isSome = true) : Answers name r
  | type {t r id} (ht : l.typedefs.find? name = some t) (hr : l.reference? t.target = some r)
    (hnone : r.resolution = none) (hid : (readings t.space r.base).findSome? l.type? = some id) :
    Answers name (r.apply (.type id))
  | primitive {t r} (ht : l.typedefs.find? name = some t) (hr : l.reference? t.target = some r)
    (hnone : r.resolution = none) (htype : (readings t.space r.base).findSome? l.type? = none)
    (hleaf : (Declarator.parse r.typeString).isPrimitiveLeaf = true) :
    Answers name (r.apply .primitive)

/-- The typedef that the target of the typedef `name` names in the innermost scope around it. -/
def next? (name : String) : Option String := do
  let t ← l.typedefs.find? name
  let r ← l.reference? t.target
  (readings t.space r.base).find? l.typedefs.contains

/-- The chain of a name: what it comes to after some number of typedefs. -/
def after (l : Lookup) (name : String) : Nat → Option String
  | 0 => some name
  | k + 1 => (l.after name k).bind l.next?

/-- A walk from `name` gets to `n` after `k` typedefs: up to there the chain passes no answer, and
no name that has been visited or is on the chain already. -/
structure Walks (visited : List String) (name : String) (k : Nat) (n : String) : Prop where
  after : l.after name k = some n
  unvisited : ∀ i ≤ k, ∀ m, l.after name i = some m → m ∉ visited
  distinct : ∀ i j, i < j → j ≤ k → l.after name i ≠ l.after name j
  unanswered : ∀ i < k, ∀ m, l.after name i = some m → ∀ r, ¬l.Answers m r

variable {l} {visited : List String} {name next n : String} {r : Reference} {k : Nat}

/-! ## One typedef -/

theorem answers_iff : l.Answers name r ↔ l.link name = .settled r := by
  constructor
  · intro h
    cases h with
    | resolved ht hr hsome => simp only [link, ht, hr, hsome, if_true]
    | type ht hr hnone hid =>
      rw [Reference.base] at hid
      simp [link, ht, hr, hnone, hid]
    | primitive ht hr hnone htype hleaf =>
      rw [Reference.base] at htype
      simp [link, ht, hr, hnone, htype, hleaf]
  · intro h
    unfold link at h
    cases ht : l.typedefs.find? name with
    | none => simp [ht] at h
    | some t =>
      cases hr : l.reference? t.target with
      | none => simp [ht, hr] at h
      | some target =>
        simp only [ht, hr] at h
        by_cases hsome : target.resolution.isSome = true
        · rw [if_pos hsome] at h
          obtain rfl := Link.settled.inj h
          exact .resolved ht hr hsome
        · rw [if_neg hsome] at h
          have hnone := Option.not_isSome_iff_eq_none.1 hsome
          split at h
          · next id hid =>
            obtain rfl := Link.settled.inj h
            exact .type ht hr hnone hid
          · next htype =>
            split at h
            · next hleaf =>
              obtain rfl := Link.settled.inj h
              exact .primitive ht hr hnone htype hleaf
            · split at h <;> cases h

/-- A typedef that has no answer leads on to the next one, if there is one. -/
theorem link_cases (l : Lookup) (name : String) : (∃ r, l.link name = .settled r) ∨
    (∃ next, l.link name = .next next ∧ l.next? name = some next) ∨
      l.link name = .deadEnd ∧ l.next? name = none := by
  rw [link, next?]
  cases ht : l.typedefs.find? name with
  | none => exact .inr (.inr ⟨rfl, rfl⟩)
  | some t =>
    simp only [Option.bind_eq_bind, Option.bind_some]
    cases hr : l.reference? t.target with
    | none => exact .inr (.inr ⟨rfl, rfl⟩)
    | some target =>
      simp only [Option.bind_some, Reference.base]
      split
      · exact .inl ⟨_, rfl⟩
      · split
        · exact .inl ⟨_, rfl⟩
        · split
          · exact .inl ⟨_, rfl⟩
          · split
            · next hnext => exact .inr (.inl ⟨_, rfl, hnext⟩)
            · next hnext => exact .inr (.inr ⟨rfl, hnext⟩)

theorem next?_of_link_next (h : l.link name = .next next) : l.next? name = some next := by
  rcases l.link_cases name with ⟨r, hr⟩ | ⟨next', hlink, hnext⟩ | ⟨hlink, -⟩
  · cases h.symm.trans hr
  · obtain rfl := Link.next.inj (h.symm.trans hlink)
    exact hnext
  · cases h.symm.trans hlink

theorem next?_of_deadEnd (h : l.link name = .deadEnd) : l.next? name = none := by
  rcases l.link_cases name with ⟨r, hr⟩ | ⟨next, hlink, -⟩ | ⟨-, hnext⟩
  · cases h.symm.trans hr
  · cases h.symm.trans hlink
  · exact hnext

theorem unanswered_of_link (h : ∀ r, l.link name ≠ .settled r) : ∀ r, ¬l.Answers name r :=
  fun r hr => h r (answers_iff.1 hr)

/-! ## The chain -/

/-- The chain may be followed from its second name on. -/
theorem after_succ (l : Lookup) (name : String) (k : Nat) :
    l.after name (k + 1) = (l.next? name).bind fun next => l.after next k := by
  induction k with
  | zero => cases h : l.next? name <;> simp [after, h]
  | succ k ih =>
    rw [after, ih, Option.bind_assoc]
    rfl

theorem walks_zero_iff : l.Walks visited name 0 n ↔ n = name ∧ name ∉ visited := by
  constructor
  · intro h
    exact ⟨(Option.some.inj h.after).symm, h.unvisited 0 (Nat.zero_le 0) name rfl⟩
  · rintro ⟨rfl, hn⟩
    refine ⟨rfl, ?_, by omega, by omega⟩
    intro i hi m hm
    obtain rfl : i = 0 := by omega
    obtain rfl := Option.some.inj hm
    exact hn

/-- A walk goes on from the second name, with the first one visited. -/
theorem walks_succ_iff : l.Walks visited name (k + 1) n ↔
    name ∉ visited ∧ (∀ r, ¬l.Answers name r) ∧
      ∃ next, l.next? name = some next ∧ l.Walks (name :: visited) next k n := by
  constructor
  · intro h
    have hafter := h.after
    rw [after_succ] at hafter
    obtain ⟨next, hnext, hafter⟩ := Option.bind_eq_some_iff.1 hafter
    have hshift : ∀ i, l.after name (i + 1) = l.after next i := by
      intro i
      rw [after_succ, hnext, Option.bind_some]
    refine ⟨h.unvisited 0 (by omega) name rfl, h.unanswered 0 (by omega) name rfl, next, hnext,
      hafter, ?_, ?_, ?_⟩
    · intro i hi m hm hmem
      rcases List.mem_cons.1 hmem with rfl | hmem
      · exact h.distinct 0 (i + 1) (by omega) (by omega) ((hshift i).trans hm).symm
      · exact h.unvisited (i + 1) (by omega) m ((hshift i).trans hm) hmem
    · intro i j hij hj
      rw [← hshift, ← hshift]
      exact h.distinct (i + 1) (j + 1) (by omega) (by omega)
    · intro i hi m hm
      exact h.unanswered (i + 1) (by omega) m ((hshift i).trans hm)
  · rintro ⟨hname, hanswer, next, hnext, h⟩
    have hshift : ∀ i, l.after name (i + 1) = l.after next i := by
      intro i
      rw [after_succ, hnext, Option.bind_some]
    refine ⟨(hshift k).trans h.after, ?_, ?_, ?_⟩
    · intro i hi m hm
      cases i with
      | zero => exact Option.some.inj hm ▸ hname
      | succ i =>
        have := h.unvisited i (by omega) m ((hshift i).symm.trans hm)
        exact fun hmem => this (List.mem_cons_of_mem _ hmem)
    · intro i j hij hj
      obtain ⟨j, rfl⟩ : ∃ j', j = j' + 1 := ⟨j - 1, by omega⟩
      rw [hshift]
      cases i with
      | zero =>
        intro hsame
        exact h.unvisited j (by omega) name hsame.symm List.mem_cons_self
      | succ i =>
        rw [hshift]
        exact h.distinct i j (by omega) (by omega)
    · intro i hi m hm
      cases i with
      | zero => exact Option.some.inj hm ▸ hanswer
      | succ i => exact h.unanswered i (by omega) m ((hshift i).symm.trans hm)

/-- A walk from a name that has been visited gets nowhere. -/
theorem not_walks (h : name ∈ visited) : ¬l.Walks visited name k n := by
  intro hw
  exact hw.unvisited 0 (Nat.zero_le k) name rfl h

/-- A walk gets to the name that it starts with, and to those that the next typedef leads to. -/
theorem exists_walks_iff {P : String → Prop} (hname : name ∉ visited) :
    (∃ k n, l.Walks visited name k n ∧ P n) ↔
      P name ∨ (∀ r, ¬l.Answers name r) ∧
        ∃ next, l.next? name = some next ∧ ∃ k n, l.Walks (name :: visited) next k n ∧ P n := by
  constructor
  · rintro ⟨k, n, hw, hn⟩
    cases k with
    | zero =>
      obtain ⟨rfl, -⟩ := walks_zero_iff.1 hw
      exact .inl hn
    | succ k =>
      obtain ⟨-, hanswer, next, hnext, hw⟩ := walks_succ_iff.1 hw
      exact .inr ⟨hanswer, next, hnext, k, n, hw, hn⟩
  · rintro (hn | ⟨hanswer, next, hnext, k, n, hw, hn⟩)
    · exact ⟨0, name, walks_zero_iff.2 ⟨rfl, hname⟩, hn⟩
    · exact ⟨k + 1, n, walks_succ_iff.2 ⟨hname, hanswer, next, hnext, hw⟩, hn⟩

theorem mem_keys_of_next? (h : l.next? name = some next) :
    name ∈ l.typedefs.keys ∧ next ∈ l.typedefs.keys := by
  simp only [next?, Option.bind_eq_bind, Option.bind_eq_some_iff] at h
  obtain ⟨t, ht, r, -, h⟩ := h
  have hcontains := List.find?_some h
  rw [Table.contains] at hcontains
  obtain ⟨t', ht'⟩ := Option.isSome_iff_exists.1 hcontains
  exact ⟨Table.mem_keys_of_find? ht, Table.mem_keys_of_find? ht'⟩

/-- Each typedef on the way leaves fewer that have not been visited. -/
theorem Walks.lt_unvisited (h : l.Walks visited name k n) (hn : n ∈ l.typedefs.keys) :
    k < (l.typedefs.unvisited visited).length := by
  induction k generalizing visited name with
  | zero =>
    obtain ⟨rfl, hv⟩ := walks_zero_iff.1 h
    exact List.length_pos_of_mem (List.mem_filter.2 ⟨hn, by simpa using hv⟩)
  | succ k ih =>
    obtain ⟨hv, -, next, hnext, h⟩ := walks_succ_iff.1 h
    have hlt := ih h
    have hfewer := l.typedefs.length_unvisited_cons (mem_keys_of_next? hnext).1 hv
    omega

/-- A walk is no longer than there are typedefs that have not been visited. Only the name that it
starts with need not be one. -/
theorem Walks.lt_max (h : l.Walks visited name k n) :
    k < max 1 (l.typedefs.unvisited visited).length := by
  cases k with
  | zero => omega
  | succ k =>
    obtain ⟨m, -, hnext⟩ := Option.bind_eq_some_iff.1 h.after
    have hlt := h.lt_unvisited (mem_keys_of_next? hnext).2
    omega

/-! ## The walk -/

/-- What a walk finds is the answer that it gets to. -/
theorem target_walk_iff : (l.walk visited name).target = some r ↔
    ∃ k n, l.Walks visited name k n ∧ l.Answers n r := by
  -- along the walk: the name that comes next is visited by it and passed by the chain
  fun_induction walk l visited name with
  | case1 visited name hv => simp [not_walks hv]
  | case2 visited name hv target hl =>
    have hanswer := answers_iff.2 hl
    rw [exists_walks_iff hv, answers_iff, hl, Option.some_inj, Link.settled.injEq]
    exact ⟨.inl, fun h => h.resolve_right fun hnone => hnone.1 _ hanswer⟩
  | case3 visited name hv hl =>
    rw [exists_walks_iff hv, answers_iff, hl]
    simp [next?_of_deadEnd hl]
  | case4 visited name hv next hl ih =>
    rw [ih, exists_walks_iff hv, answers_iff, hl]
    simp [next?_of_link_next hl, unanswered_of_link, hl]

/-- A walk visits what it gets to, and nothing else. -/
theorem mem_visited_walk_iff : n ∈ (l.walk visited name).visited ↔
    n ∈ visited ∨ ∃ k, l.Walks visited name k n := by
  have hnames : n ∈ (l.walk visited name).visited ↔
      n ∈ visited ∨ ∃ k m, l.Walks visited name k m ∧ m = n := by
    fun_induction walk l visited name with
    | case1 visited name hv => simp [not_walks hv]
    | case2 visited name hv target hl =>
      have hanswer := answers_iff.2 hl
      rw [exists_walks_iff hv, List.mem_cons, or_comm, eq_comm]
      exact or_congr_right ⟨.inl, fun h => h.resolve_right fun hnone => hnone.1 _ hanswer⟩
    | case3 visited name hv hl =>
      rw [exists_walks_iff hv, List.mem_cons, or_comm, eq_comm]
      simp [next?_of_deadEnd hl]
    | case4 visited name hv next hl ih =>
      rw [ih, exists_walks_iff hv, List.mem_cons, or_comm (a := n = name), or_assoc, eq_comm]
      simp [next?_of_link_next hl, unanswered_of_link, hl]
  simpa using hnames

/-- **What a walk over typedefs finds and visits.** It finds the answer that the chain of the name
comes to before it meets a name again, with the resolution that the target has or is found to have,
and it visits the names on the chain up to there. As each of them is another typedef, the walk
ends. -/
theorem walk_iff (l : Lookup) (visited : List String) (name : String) :
    (∀ r, (l.walk visited name).target = some r ↔
      ∃ k n, l.Walks visited name k n ∧ l.Answers n r) ∧
    (∀ r, (l.walk visited name).target = some r → r.resolution.isSome = true) ∧
    (∀ n, n ∈ (l.walk visited name).visited ↔ n ∈ visited ∨ ∃ k, l.Walks visited name k n) ∧
    ∀ k n, l.Walks visited name k n → k < max 1 (l.typedefs.unvisited visited).length := by
  refine ⟨fun r => target_walk_iff, fun r hr => ?_, fun n => mem_visited_walk_iff,
    fun k n h => h.lt_max⟩
  obtain ⟨n, hn⟩ := Store.exists_link_of_walk hr
  exact Store.isSome_resolution_of_link hn

/-- A chain that leaves its namespace and comes to a type, and one that comes round. -/
def winding : Lookup where
  typedefs := .ofList [⟨⟨1⟩, "A", "engine", ⟨11⟩⟩, ⟨⟨2⟩, "B", "", ⟨12⟩⟩,
    ⟨⟨3⟩, "X", "engine", ⟨13⟩⟩, ⟨⟨4⟩, "Y", "engine", ⟨14⟩⟩]
  reference? id :=
    [(11, "B*"), (12, "struct Node"), (13, "Y"), (14, "engine::X")].findSome? fun target =>
      if target.1 = id.val then some (.ofTypeString id target.2) else none
  type? name := if name = "Node" then some ⟨7⟩ else none

/-- In `winding`, the walk from `A` finds the type that `B` names, and visits both of them. The walk
from `X` finds nothing. -/
theorem walk_iff_winding :
    (∃ r, (winding.walk ["Old"] "engine::A").target = some r ∧ r.target = some ⟨7⟩ ∧
      r.resolution.isSome = true ∧ ∃ k n, winding.Walks ["Old"] "engine::A" k n ∧
        winding.Answers n r) ∧
    (∀ n, n ∈ ["B", "engine::A", "Old"] ↔
      n ∈ ["Old"] ∨ ∃ k, winding.Walks ["Old"] "engine::A" k n) ∧
    (∀ k n r, winding.Walks [] "engine::X" k n → ¬winding.Answers n r) ∧
    ∀ k n, winding.Walks [] "engine::X" k n → k < 4 := by
  have hA : winding.link "engine::A" = .next "B" := by decide +kernel
  have hB : winding.link "B" = .settled ((Reference.ofTypeString ⟨12⟩ "struct Node").apply
      (.type ⟨7⟩)) := by decide +kernel
  have hX : winding.link "engine::X" = .next "engine::Y" := by decide +kernel
  have hY : winding.link "engine::Y" = .next "engine::X" := by decide +kernel
  have hsize : (winding.typedefs.unvisited []).length = 4 := by decide +kernel
  have hfound : winding.walk ["Old"] "engine::A" =
      ⟨some ((Reference.ofTypeString ⟨12⟩ "struct Node").apply (.type ⟨7⟩)),
        ["B", "engine::A", "Old"], none⟩ := by
    rw [walk_of_next (by decide) hA, walk_of_settled (by decide) hB]
  have hround : (winding.walk [] "engine::X").target = none := by
    rw [walk_of_next (by decide) hX, walk_of_next (by decide) hY, walk_of_mem (by decide)]
  obtain ⟨hanswer, hresolved, hvisited, -⟩ := walk_iff winding ["Old"] "engine::A"
  obtain ⟨hnone, -, -, hlength⟩ := walk_iff winding [] "engine::X"
  refine ⟨⟨_, by rw [hfound], rfl, hresolved _ (by rw [hfound]), (hanswer _).1 (by rw [hfound])⟩,
    fun n => ?_, fun k n r hw hr => ?_, fun k n hw => ?_⟩
  · rw [← hvisited, hfound]
  · have := (hnone r).2 ⟨k, n, hw, hr⟩
    rw [hround] at this
    cases this
  · have := hlength k n hw
    rwa [hsize] at this

end Lookup

end DeclGraph
