import DeclGraph.Decimal.Fixed
import DeclGraph.Decimal.Percentage
import DeclGraph.Graph.Declaration
import DeclGraph.Layout.AddressSpace
import DeclGraph.Order

/-!
# Layouts

The layout of one aggregate: where its bases and members lie, and the bytes between them that
nothing uses. Padding is found by a sweep over the extents of all slots in order of their start.
-/

namespace DeclGraph

open Text

/-- A base class inside a derived type. -/
structure BaseSlot where
  name : String
  typeId : TypeId
  offset : Nat
  size : Nat
  deriving DecidableEq, Repr

/-- The bits of a bit-field in its storage unit. -/
structure BitRange where
  width : Nat
  offset : Nat
  deriving DecidableEq, Repr

/-- A member inside its type. -/
structure MemberSlot where
  memberId : MemberId
  name : String
  typeString : String
  offset : Nat
  /-- Bytes taken; for a bit-field those of the whole storage unit. -/
  size : Nat
  alignment : Nat
  bits : Option BitRange
  deriving DecidableEq, Repr

/-- Bytes that nothing uses. -/
structure Hole where
  offset : Nat
  size : Nat
  deriving DecidableEq, Repr

/-- The layout of one aggregate. -/
structure Layout where
  typeId : TypeId
  name : String
  kind : Kind
  size : Nat := 0
  alignment : Nat := 1
  bases : List BaseSlot := []
  members : List MemberSlot := []
  padding : List Hole := []
  deriving DecidableEq, Repr

/-- The first byte after a base. -/
def BaseSlot.stop (space : AddressSpace) (s : BaseSlot) : Nat := space.clamp (s.offset + s.size)

/-- The first byte after a member. -/
def MemberSlot.stop (space : AddressSpace) (s : MemberSlot) : Nat :=
  space.clamp (s.offset + s.size)

/-- A base on one line. -/
def BaseSlot.display (s : BaseSlot) : String :=
  s.name ++ " @ " ++ hexOffset s.offset ++ " (" ++ toString s.size ++ " bytes)"

/-- A member on one line. -/
def MemberSlot.display (s : MemberSlot) : String :=
  s.typeString ++ " " ++ s.name ++ " @ " ++ hexOffset s.offset ++
    match s.bits with
    | some b => " : " ++ toString b.width ++ " bits at " ++ toString b.offset
    | none => ""

/-- A hole on one line, by its first byte and the first one after it. -/
def Hole.display (h : Hole) : String :=
  hexOffset h.offset ++ " - " ++ hexOffset (h.offset + h.size) ++ " (" ++ toString h.size ++
    " bytes)"

/-- Goes through extents in order of their start. `reached` is the end of all extents met so far;
an extent that starts after it leaves a hole. Returns the holes and the end of all extents. -/
def sweep : Nat → List (Nat × Nat) → List Hole × Nat
  | reached, [] => ([], reached)
  | reached, (start, stop) :: rest =>
    let (holes, last) := sweep (max reached stop) rest
    (if reached < start then ⟨reached, start - reached⟩ :: holes else holes, last)

namespace Layout

variable (l : Layout)

/-- The bytes that bases and members take, as pairs of their first and the first after them. -/
def extents (space : AddressSpace) : List (Nat × Nat) :=
  l.bases.map (fun s => (s.offset, s.stop space)) ++
    l.members.map fun s => (s.offset, s.stop space)

/-- The holes between the slots, and from the last slot to the end. -/
def holes (space : AddressSpace) : List Hole :=
  let (inner, reached) := sweep 0 ((l.extents space).mergeSort pairLe)
  if reached < l.size then inner ++ [⟨reached, l.size - reached⟩] else inner

/-- The layout with its padding found anew. -/
def withPadding (space : AddressSpace) : Layout := { l with padding := l.holes space }

/-- The first member with a name. -/
def member? (name : String) : Option MemberSlot := l.members.find? (·.name = name)

/-- The first base with a name. -/
def base? (name : String) : Option BaseSlot := l.bases.find? (·.name = name)

/-- The members that start at an offset. -/
def membersAt (offset : Nat) : List MemberSlot := l.members.filter (·.offset = offset)

/-- Bytes lost to padding. -/
def totalPadding : Nat := min ((l.padding.map Hole.size).foldr (· + ·) 0) maxWord

/-- The share of the size that is padding, in percent. -/
def paddingShare : Float := Decimal.percentage l.totalPadding l.size

/-- The layout as lines of text. -/
def lines : List String :=
  [l.kind.keyword ++ " " ++ l.name ++ " \x7b",
    "  // Size: " ++ hexOffset l.size ++ " (" ++ toString l.size ++ " bytes)",
    "  // Alignment: " ++ toString l.alignment] ++
  (if l.bases.isEmpty then []
    else "  // Base classes:" :: l.bases.map fun s => "  //   " ++ s.display) ++
  l.members.map (fun s => "  " ++ s.display) ++
  (if l.padding.isEmpty then []
    else
      ("  // Padding (" ++ toString l.totalPadding ++ " bytes total, " ++
        Decimal.fixedFloat 1 l.paddingShare ++ "%):") ::
      l.padding.map fun h => "  //   " ++ h.display) ++
  ["\x7d"]

/-- The layout as text, each line ended. -/
def display : String := String.join (l.lines.map (· ++ "\n"))

end Layout

end DeclGraph
