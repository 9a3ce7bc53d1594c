import DeclGraph.Layout.Cursor
import DeclGraph.Layout.Basic

/-!
# Placing bases and members

Once the metrics of its bases and members are known, the layout of an aggregate is determined:
bases come first and in order, members follow, one after another in a struct and all at the same
offset in a union.
-/

namespace DeclGraph

/-- A base with the metrics of its type. -/
structure MeasuredBase where
  typeId : TypeId
  name : String
  metrics : Metrics
  deriving DecidableEq, Repr

/-- A member with the metrics of its bytes, array counts and requested alignment included. -/
structure MeasuredMember where
  member : Member
  metrics : Metrics
  deriving DecidableEq, Repr

/-- Slots with the end of the last one and the largest alignment among them. -/
structure Placed (σ : Type) where
  slots : List σ
  stop : Nat
  alignment : Nat
  deriving DecidableEq, Repr

namespace MeasuredMember

variable (m : MeasuredMember)

/-- The width of a bit-field. -/
def width : Option Nat := m.member.bitWidth.map UInt8.toNat

/-- The slot of the member at an offset; `bit` is where its bits start. -/
def slot (offset : Nat) (bit : Option Nat) : MemberSlot :=
  { memberId := m.member.id
    name := m.member.name
    typeString := m.member.typeString
    offset
    size := m.metrics.size
    alignment := m.metrics.alignment
    bits := match m.width, bit with
      | some width, some offset => some ⟨width, offset⟩
      | _, _ => none }

end MeasuredMember

variable (space : AddressSpace)

/-- Places bases one after another. `offset` is the end of those placed, and `alignment` the
largest one met. -/
def placeBases (offset alignment : Nat) : List MeasuredBase → Placed BaseSlot
  | [] => ⟨[], offset, alignment⟩
  | b :: rest =>
    let start := space.alignUp offset b.metrics.alignment
    let placed := placeBases (space.clamp (start + b.metrics.size))
      (max alignment b.metrics.alignment) rest
    { placed with slots := ⟨b.name, b.typeId, start, b.metrics.size⟩ :: placed.slots }

/-- Places the members of a struct one after another. -/
def placeInOrder (c : Cursor) : List MeasuredMember → Placed MemberSlot
  | [] => ⟨[], c.stop space, c.alignment⟩
  | m :: rest =>
    let (c, p) := c.place space m.width m.metrics
    let placed := placeInOrder c rest
    { placed with slots := m.slot p.offset p.bit :: placed.slots }

/-- Places the members of a union at one offset. -/
def placeTogether (start stop alignment : Nat) : List MeasuredMember → Placed MemberSlot
  | [] => ⟨[], stop, alignment⟩
  | m :: rest =>
    let placed := placeTogether start (max stop (space.clamp (start + m.metrics.size)))
      (max alignment m.metrics.alignment) rest
    { placed with slots := m.slot start (m.width.map fun _ => 0) :: placed.slots }

/-- Places members from `start` on. -/
def placeMembers (isUnion : Bool) (start : Nat) (ms : List MeasuredMember) : Placed MemberSlot :=
  if isUnion then placeTogether space start start 1 ms
  else placeInOrder space (Cursor.start start) ms

/-- The layout of an aggregate from the metrics of its bases and members. -/
def DeclaredType.layout (n : DeclaredType) (bases : List MeasuredBase)
    (members : List MeasuredMember) : Layout :=
  let based := placeBases space 0 1 bases
  let placed := placeMembers space n.kind.isUnion based.stop members
  let alignment := (Metrics.requested n.alignment).getD (max based.alignment placed.alignment)
  Layout.withPadding
    { typeId := n.id
      name := n.qualifiedName
      kind := n.kind
      size := space.alignUp placed.stop alignment
      alignment
      bases := based.slots
      members := placed.slots }
    space

end DeclGraph
