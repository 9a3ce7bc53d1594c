import DeclGraph.Log
import DeclGraph.Typedef.Index

/-!
# Typedef chains

A typedef may name another typedef. A walk follows the links until a target says what it means,
or no link leads on, or a name comes up again.

* `Lookup.link`: what one typedef says.
* `Lookup.walk`: the whole walk. Each step visits a new name of a finite index, so it ends.
* `Lookup.walk_visited`: names once visited stay visited.
-/

namespace DeclGraph

open Text Name

/-- What a walk looks names and references up in. -/
structure Lookup where
  typedefs : TypedefIndex
  reference? : ReferenceId → Option Reference
  type? : String → Option TypeId

/-- What a typedef says about the name that is looked for. -/
inductive Link
  /-- The target is a type or a primitive, and carries the resolution. -/
  | settled (target : Reference)
  /-- The target is the typedef of this name. -/
  | next (name : String)
  | deadEnd
  deriving DecidableEq

/-- How a walk ended. -/
structure Walk where
  target : Option Reference
  /-- The names visited, latest first. -/
  visited : List String
  /-- The name that came up again, if one did. -/
  repeated : Option String := none

/-- The names that `name` may stand for in the namespace `space`: in each scope around it,
innermost first, and then as it stands. An absolute name stands for itself only. -/
def readings (space name : String) : List String :=
  if isAbsolute name then [relative name] else inScopes space name

namespace Lookup

variable (l : Lookup)

/-- What the typedef `name` says. The target is asked in this order: whether it is resolved,
whether it names a type, whether it spells a primitive, and whether it names a typedef. -/
def link (name : String) : Link :=
  match l.typedefs.find? name with
  | none => .deadEnd
  | some t =>
    match l.reference? t.target with
    | none => .deadEnd
    | some target =>
      let d := Declarator.parse target.typeString
      -- Names are read where the typedef is declared, not where it is used.
      let names := readings t.space d.canonicalBase
      if target.resolution.isSome then .settled target
      else match names.findSome? l.type? with
        | some id => .settled (target.apply (.type id))
        | none =>
          if d.isPrimitiveLeaf then .settled (target.apply .primitive)
          else match names.find? l.typedefs.contains with
            | some next => .next next
            | none => .deadEnd

theorem mem_keys_of_link {name next : String} (h : l.link name = .next next) :
    name ∈ l.typedefs.keys := by
  unfold link at h
  split at h
  · simp at h
  · next t ht => exact Table.mem_keys_of_find? ht

/-- Follows typedefs from `name`, and stops at a name that is among those visited. -/
def walk (visited : List String) (name : String) : Walk :=
  if _hv : name ∈ visited then ⟨none, visited, some name⟩
  else
    match _hl : l.link name with
    | .settled target => ⟨some target, name :: visited, none⟩
    | .deadEnd => ⟨none, name :: visited, none⟩
    | .next next => walk (name :: visited) next
termination_by (l.typedefs.unvisited visited).length
decreasing_by exact l.typedefs.length_unvisited_cons (l.mem_keys_of_link _hl) _hv

/-- Follows typedefs from `name`, and warns if a name comes up again. What the chain came to is
given with the names visited. -/
def follow (visited : List String) (name : String) :
    Noted (Option Reference × List String) := do
  let walk := l.walk visited name
  if let some again := walk.repeated then
    let chain := walk.visited.mergeSort fun a b => decide (a ≤ b)
    .note .warn ("Typedef cycle detected at '" ++ again ++ "' (chain: " ++
      joinStrings ", " chain ++ "), abandoning resolution")
  return (walk.target, walk.visited)

/-- Names once visited stay visited. -/
theorem walk_visited (visited : List String) (name : String) {n : String} (h : n ∈ visited) :
    n ∈ (l.walk visited name).visited := by
  fun_induction walk l visited name with
  | case1 => exact h
  | case2 => simp [h]
  | case3 => simp [h]
  | case4 _ _ _ _ _ ih => exact ih (by simp [h])

end Lookup

end DeclGraph
