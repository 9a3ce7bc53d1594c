import DeclGraph.Layout.Input
import DeclGraph.Layout.Placing

/-!
# Measuring types

The metrics of a type need those of its bases and of the types of its members. `LayoutM` carries
what is already known: metrics by type name, layouts of aggregates, and the names of the types
that are being measured. A type that contains itself finds its own name among them and takes the
fallback there, so the recursion is never deeper than there are types; `LayoutInput.metrics`
allows it that depth.
-/

namespace DeclGraph

/-- What is known while types are measured. -/
structure Memo where
  /-- The names of the types that are being measured. -/
  active : List String := []
  metrics : Table String Metrics := {}
  layouts : Table TypeId Layout := {}
  /-- How often a member took the fallback because nothing was known of its type. -/
  defaulted : Nat := 0
  /-- What was noted, latest first. -/
  notes : List Note := []
  deriving DecidableEq, Repr

/-- A computation that measures types. -/
abbrev LayoutM := StateM Memo

namespace LayoutM

/-- Notes one line. -/
def note (level : Level) (text : String) : LayoutM Unit :=
  modify fun m => { m with notes := ⟨level, text⟩ :: m.notes }

/-- Takes a result with its notes. -/
def ofNoted {α : Type} (x : Noted α) : LayoutM α := do
  modify fun m => { m with notes := x.notes.reverse ++ m.notes }
  return x.value

/-- Runs a computation and gives what it noted, in order. -/
def collecting {α : Type} (x : LayoutM α) (m : Memo) : (α × List Note) × Memo :=
  let (a, m) := x.run { m with notes := [] }
  ((a, m.notes.reverse), m)

end LayoutM

/-- Starts to measure a type. -/
def Memo.enter (name : String) (m : Memo) : Memo := { m with active := name :: m.active }

/-- Ends measuring a type. -/
def Memo.leave (name : String) (found : Metrics) (m : Memo) : Memo :=
  { m with active := m.active.erase name, metrics := m.metrics.insert name found }

namespace LayoutInput

variable (d : LayoutInput) (space : AddressSpace) (sizeOf : TypeId → LayoutM Metrics)

/-- The metrics of a leaf. -/
def leafMetrics : Leaf → LayoutM Metrics
  | .pointer => return .pointer
  | .primitive p => return .ofPrimitive p
  | .type id => sizeOf id
  | .unsized => do
    modify fun m => { m with defaulted := m.defaulted + 1 }
    return .fallback

/-- Measures the resolved ones among bases. -/
def measureBases : List BaseEdge → LayoutM (List MeasuredBase)
  | [] => return []
  | b :: rest =>
    match b.target with
    | none => do
      LayoutM.note .debug ("Skipping unresolved base '" ++ b.typeString ++ "' of " ++
        b.owner.display)
      measureBases rest
    | some id => do
      let metrics ← sizeOf id
      let name := ((d.types.find? id).map (·.qualifiedName)).getD b.typeString
      return ⟨id, name, metrics⟩ :: (← measureBases rest)

/-- Measures a member whose type is looked up in `scope`. -/
def measureMember (scope : String) (m : Member) : LayoutM MeasuredMember := do
  let e ← LayoutM.ofNoted (d.memberExtent m scope)
  let metrics ← leafMetrics sizeOf e.leaf
  return ⟨m, (e.metrics space metrics).withRequested m.alignment⟩

/-- Measures members in order. -/
def measureMembers (scope : String) : List Member → LayoutM (List MeasuredMember)
  | [] => return []
  | m :: rest => do
    let measured ← d.measureMember space sizeOf scope m
    return measured :: (← measureMembers scope rest)

/-- Lays an aggregate out. -/
def layoutWith (n : DeclaredType) : LayoutM Layout := do
  let bases ← d.measureBases sizeOf (d.basesOf n.id)
  let members ← d.measureMembers space sizeOf n.qualifiedName (d.membersOf n.id)
  return n.layout space bases members

/-- The metrics of a type that has not been measured yet. -/
def measureWith (n : DeclaredType) : LayoutM Metrics :=
  match n.kind with
  | .primitive =>
    return (Metrics.ofPrimitiveName n.baseName).withRequested n.alignment
  | .enum | .unknown => return Metrics.fallback.withRequested n.alignment
  | .struct | .class_ | .union => do
    let l ← d.layoutWith space sizeOf n
    modify fun m => { m with layouts := m.layouts.insert n.id l }
    return .make l.size l.alignment

/-- The metrics of a type, at most `depth` types deep. -/
def metricsWithin : Nat → TypeId → LayoutM Metrics
  | 0, _ => return .fallback
  | depth + 1, id => do
    match d.types.find? id with
    | none => return .fallback
    | some n =>
      let memo ← get
      match memo.metrics.find? n.qualifiedName with
      | some known => return known
      | none =>
        if n.qualifiedName ∈ memo.active then
          LayoutM.note .debug ("Size cycle through '" ++ n.qualifiedName ++ "', using fallback")
          return .fallback
        else
          -- The name counts as active until its metrics are known.
          modify (Memo.enter n.qualifiedName)
          let found ← d.measureWith space (metricsWithin depth) n
          modify (Memo.leave n.qualifiedName found)
          return found

/-- A depth that no measurement exceeds. -/
def depth : Nat := d.types.size + 1

/-- The metrics of a type. -/
def metrics (id : TypeId) : LayoutM Metrics := d.metricsWithin space d.depth id

/-- The metrics of a type by its name, which may be that of a primitive. -/
def metricsNamed (name : String) : LayoutM Metrics :=
  match d.byName.find? name with
  | some id => d.metrics space id
  | none => return Metrics.ofPrimitiveName name

/-- The layout of an aggregate. -/
def layout? (id : TypeId) : LayoutM (Option Layout) := do
  if ((d.types.find? id).map (·.isAggregate)).getD false then
    unless (← get).layouts.contains id do
      let _ ← d.metrics space id
    return (← get).layouts.find? id
  else return none

/-- The slots of the bases of a type. -/
def baseSlots (id : TypeId) : LayoutM (Placed BaseSlot) := do
  return placeBases space 0 1 (← d.measureBases (d.metrics space) (d.basesOf id))

/-- The slots of the members of a type that start at an offset. -/
def memberSlots (id : TypeId) (start : Nat) : LayoutM (Placed MemberSlot) := do
  let node := d.types.find? id
  let scope := (node.map (·.qualifiedName)).getD ""
  let isUnion := (node.map (·.kind.isUnion)).getD false
  return placeMembers space isUnion start
    (← d.measureMembers space (d.metrics space) scope (d.membersOf id))

end LayoutInput

end DeclGraph
