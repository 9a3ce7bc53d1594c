import DeclGraph.Layout.Metrics
import DeclGraph.Store.Basic

/-!
# What layout reads

The declarations that one layout pass reads, taken from a store up front, and how a member's type
is followed to what its bytes are made of.

* `LayoutInput.find?`: a name in a scope, where a type shadows a typedef of the same name.
* `LayoutInput.typedefExtent`: a typedef, followed link by link. Every link may multiply the
  elements; a pointer or reference ends the walk.
* `LayoutInput.memberExtent`: a member. Its type is looked up by name first, since a typedef may
  carry dimensions that the type it resolves to does not have.
-/

namespace DeclGraph

open Name

/-- What bytes are made of. -/
inductive Leaf
  | pointer
  | primitive (p : Primitive)
  | type (id : TypeId)
  /-- Nothing is known. -/
  | unsized
  deriving DecidableEq, Repr

/-- Elements of one kind, by the counts that multiply them, innermost first. -/
structure Extent where
  leaf : Leaf
  counts : List UInt32
  deriving DecidableEq, Repr

/-- The extent repeated, if a count is given. -/
def Extent.times (e : Extent) (count : Option UInt32) : Extent :=
  { e with counts := e.counts ++ count.toList }

/-- The metrics of an extent whose leaf has metrics `m`. -/
def Extent.metrics (space : AddressSpace) (e : Extent) (m : Metrics) : Metrics :=
  e.counts.foldl (fun m count => m.array space count.toNat) m

/-- What a name refers to. -/
inductive Named
  | type (id : TypeId)
  | typedef (name : String)
  deriving DecidableEq, Repr

/-- The declarations that a layout pass reads. -/
structure LayoutInput where
  types : Table TypeId DeclaredType
  byName : Table String TypeId
  members : Table TypeId (List Member)
  bases : Table TypeId (List BaseEdge)
  references : Table ReferenceId Reference
  typedefs : TypedefIndex
  deriving DecidableEq, Repr

/-- The declarations of a store that layout reads: all types, the members and bases of
aggregates, all typedefs, and the references of both. -/
def Store.layoutInput (s : Store) : LayoutInput :=
  let aggregates := s.aggregates.map (·.id)
  let members := s.membersOfEach aggregates
  let typedefs := s.typedefs.values
  { types := s.types
    byName := Table.ofPairs (s.types.values.map fun n => (n.qualifiedName, n.id))
    members
    bases := s.basesOfEach aggregates
    references := Store.pick s.references
      (members.values.flatten.filterMap (·.reference) ++ typedefs.map (·.target))
    typedefs := TypedefIndex.ofList typedefs }

/-- How a sizing walk over typedefs ended. -/
structure Sizing where
  extent : Option Extent
  /-- The name that came up again, if one did. -/
  repeated : Option String := none
  deriving DecidableEq, Repr

/-- What one typedef says about size. -/
inductive SizeLink
  | leaf (l : Leaf) (count : Option UInt32)
  | next (name : String) (count : Option UInt32)
  | deadEnd
  deriving DecidableEq, Repr

namespace LayoutInput

variable (d : LayoutInput)

/-- The aggregates in store order. -/
def aggregates : List DeclaredType := d.types.values.filter (·.isAggregate)

/-- The members of a type in source order. -/
def membersOf (id : TypeId) : List Member := d.members.list id

/-- The bases of a type in source order. -/
def basesOf (id : TypeId) : List BaseEdge := d.bases.list id

/-- What a name means in a scope: innermost first, and then as it stands. -/
def find? (name scope : String) : Option Named :=
  (inScopes scope (relative name)).findSome? fun candidate =>
    match d.byName.find? candidate with
    | some id => some (.type id)
    | none => if d.typedefs.contains candidate then some (.typedef candidate) else none

/-- What the typedef `name` says about size. -/
def sizeLink (name : String) : SizeLink :=
  match d.typedefs.find? name with
  | none => .deadEnd
  | some t =>
    match d.references.find? t.target with
    | none => .deadEnd
    | some target =>
      let count := target.elementCount
      if target.isIndirect then .leaf .pointer count
      else
        let declared := Declarator.parse target.typeString
        match d.find? declared.canonicalBase t.space with
        | some (.typedef next) => .next next count
        | some (.type id) => .leaf (.type id) count
        | none =>
          match target.target, declared.primitive with
          | some id, _ => .leaf (.type id) count
          | none, some p => .leaf (.primitive p) count
          | none, none => .deadEnd

theorem mem_keys_of_sizeLink {name next : String} {count : Option UInt32}
    (h : d.sizeLink name = .next next count) : name ∈ d.typedefs.keys := by
  unfold sizeLink at h
  split at h
  · simp at h
  · next t ht => exact Table.mem_keys_of_find? ht

/-- Follows typedefs from `name` to what their bytes are made of, and stops at a name that is
among those visited. -/
def typedefExtent (visited : List String) (name : String) : Sizing :=
  if _hv : name ∈ visited then ⟨none, some name⟩
  else
    match _hl : d.sizeLink name with
    | .deadEnd => ⟨none, none⟩
    | .leaf l count => ⟨some (Extent.times ⟨l, []⟩ count), none⟩
    | .next next count =>
      let rest := typedefExtent (name :: visited) next
      { rest with extent := rest.extent.map (·.times count) }
termination_by (d.typedefs.unvisited visited).length
decreasing_by exact d.typedefs.length_unvisited_cons (d.mem_keys_of_sizeLink _hl) _hv

/-- What one element of a reference is made of when it is written in `scope`. -/
def elementExtent (r : Reference) (scope : String) : Noted Extent := do
  let declared := Declarator.parse r.typeString
  let unaliased : Noted Extent :=
    match r.target, declared.primitive with
    | some id, _ => return ⟨.type id, []⟩
    | none, some p => return ⟨.primitive p, []⟩
    | none, none => do
      .note .debug ("No size for '" ++ r.typeString ++ "', defaulting to 4")
      return ⟨.unsized, []⟩
  match d.find? declared.canonicalBase scope with
  | some (.typedef name) =>
    let sizing := d.typedefExtent [] name
    if let some again := sizing.repeated then
      .note .debug ("Typedef cycle at '" ++ again ++ "' while sizing")
    match sizing.extent with
    | some e => return e
    | none => unaliased
  | _ => unaliased

/-- The reference of a member, read from its type string if the graph has none. -/
def referenceOf (m : Member) : Reference :=
  (m.reference.bind d.references.find?).getD (Reference.ofTypeString ⟨0⟩ m.typeString)

/-- What the bytes of a member are made of. -/
def memberExtent (m : Member) (scope : String) : Noted Extent := do
  if m.isFunctionPointer then return ⟨.pointer, []⟩
  let r := d.referenceOf m
  let element ← if r.isIndirect then pure ⟨.pointer, []⟩ else d.elementExtent r scope
  return element.times r.elementCount

end LayoutInput

end DeclGraph
