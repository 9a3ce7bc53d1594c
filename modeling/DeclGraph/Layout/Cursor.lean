import DeclGraph.Layout.Metrics

/-!
# Placing members one after another

A cursor walks through a struct and gives each member its offset. Bit-fields of one size share a
storage unit while it has room. As long as a unit is open the cursor stays at its start; the next
ordinary member, a bit-field that does not fit and a bit-field of width zero close it.
-/

namespace DeclGraph

/-- A storage unit that bit-fields still join. -/
structure StorageUnit where
  offset : Nat
  size : Nat
  /-- Bits given out so far. -/
  used : Nat
  deriving DecidableEq, Repr

namespace StorageUnit

variable (space : AddressSpace) (u : StorageUnit)

/-- Whether a bit-field of `width` bits over a type of `size` bytes joins the unit. -/
def fits (size width : Nat) : Bool :=
  u.size == size && space.clamp (u.used + width) ≤ space.clamp (u.size * 8)

/-- The first byte after the unit. -/
def stop : Nat := space.clamp (u.offset + u.size)

end StorageUnit

/-- Where a member landed. -/
structure Placement where
  offset : Nat
  /-- Position of the first bit in the storage unit, for bit-fields. -/
  bit : Option Nat
  deriving DecidableEq, Repr

/-- How far a struct has been laid out. -/
structure Cursor where
  /-- The next free byte, or the start of the open unit. -/
  offset : Nat
  unit : Option StorageUnit
  /-- The largest alignment met. -/
  alignment : Nat
  deriving DecidableEq, Repr

namespace Cursor

variable (space : AddressSpace)

/-- A cursor at the start of a struct's own members. -/
def start (offset : Nat) : Cursor := ⟨offset, none, 1⟩

/-- The end of what has been laid out, the open unit included. -/
def stop (c : Cursor) : Nat :=
  match c.unit with
  | some u => max c.offset (u.stop space)
  | none => c.offset

/-- Moves past the open unit. -/
def leaveUnit (c : Cursor) : Cursor := { c with offset := c.stop space, unit := none }

/-- Counts an alignment among those met. -/
def meet (c : Cursor) (alignment : Nat) : Cursor :=
  { c with alignment := max c.alignment alignment }

/-- Moves up to a multiple of `alignment`. -/
def align (c : Cursor) (alignment : Nat) : Cursor :=
  { c with offset := space.alignUp c.offset alignment }

/-- Places an ordinary member. -/
def placeWhole (c : Cursor) (m : Metrics) : Cursor × Placement :=
  let c := ((c.leaveUnit space).meet m.alignment).align space m.alignment
  ({ c with offset := space.clamp (c.offset + m.size) }, ⟨c.offset, none⟩)

/-- Opens a storage unit for a bit-field of `width` bits. -/
def openUnit (c : Cursor) (size width alignment : Nat) : Cursor × Placement :=
  let c := (c.leaveUnit space).align space alignment
  ({ c with unit := some ⟨c.offset, size, width⟩ }, ⟨c.offset, some 0⟩)

/-- Places a bit-field over a type with metrics `m`. Width zero only closes the open unit and
aligns what follows. -/
def placeBits (c : Cursor) (width : Nat) (m : Metrics) : Cursor × Placement :=
  let size := max m.size 1
  if width = 0 then
    let c := (c.leaveUnit space).align space m.alignment
    (c, ⟨c.offset, some 0⟩)
  else
    -- A joining bit-field counts its alignment, although the unit keeps the offset it has.
    let c := c.meet m.alignment
    match c.unit with
    | some u =>
      if u.fits space size width then
        ({ c with unit := some { u with used := space.clamp (u.used + width) } },
          ⟨u.offset, some u.used⟩)
      else c.openUnit space size width m.alignment
    | none => c.openUnit space size width m.alignment

/-- Places a member, a bit-field if it has a width. -/
def place (c : Cursor) (width : Option Nat) (m : Metrics) : Cursor × Placement :=
  match width with
  | some w => c.placeBits space w m
  | none => c.placeWhole space m

end Cursor

end DeclGraph
