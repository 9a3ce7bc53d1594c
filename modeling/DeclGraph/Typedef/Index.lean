import DeclGraph.Graph.Declaration
import DeclGraph.Table

/-!
# Typedefs by name

Typedefs filed under their qualified names. A later typedef takes the place of an earlier one of
the same name. A walk over the index ends because each step leaves fewer names unvisited
(`length_unvisited_cons`).
-/

namespace DeclGraph

/-- Typedefs under their qualified names. -/
abbrev TypedefIndex := Table String Typedef

namespace TypedefIndex

/-- Files a typedef under its name. -/
def add (index : TypedefIndex) (t : Typedef) : TypedefIndex := index.insert t.qualifiedName t

/-- The index of a list of typedefs. -/
def ofList (ts : List Typedef) : TypedefIndex := ts.foldl add Table.empty

/-- What a typedef's target is declared as, and the parts of that declaration. -/
def link? (index : TypedefIndex) (reference? : ReferenceId → Option Reference) (name : String) :
    Option (Reference × Declarator) := do
  let t ← index.find? name
  let target ← reference? t.target
  return (target, Declarator.parse target.typeString)

/-- The names that are not among those visited. -/
def unvisited (index : TypedefIndex) (visited : List String) : List String :=
  index.keys.filter (!visited.contains ·)

/-- Visiting a new name of the index leaves fewer. -/
theorem length_unvisited_cons (index : TypedefIndex) {name : String} {visited : List String}
    (hk : name ∈ index.keys) (hv : name ∉ visited) :
    (index.unvisited (name :: visited)).length < (index.unvisited visited).length := by
  unfold unvisited
  have hsub : (index.keys.filter fun n => !(name :: visited).contains n) =
      ((index.keys.filter fun n => !visited.contains n).filter fun n => n != name) := by
    rw [List.filter_filter]
    apply List.filter_congr
    intro n _
    simp only [List.contains_cons, Bool.not_or, bne]
  rw [hsub]
  refine Nat.lt_of_le_of_ne (List.length_filter_le _ _) fun he => ?_
  have := List.length_filter_eq_length_iff.1 he name
    (List.mem_filter.2 ⟨hk, by simpa using hv⟩)
  simp at this

end TypedefIndex

end DeclGraph
