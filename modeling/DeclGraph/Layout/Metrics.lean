import DeclGraph.Layout.AddressSpace
import DeclGraph.Primitive

/-!
# Size and alignment

The metrics of a type on the 32-bit x86 target: pointers take four bytes, and no natural
alignment exceeds four.
-/

namespace DeclGraph

/-- Size and alignment in bytes. -/
structure Metrics where
  size : Nat
  alignment : Nat
  deriving DecidableEq, Repr

namespace Metrics

/-- Metrics with an alignment of at least one. -/
def make (size alignment : Nat) : Metrics := ⟨size, max alignment 1⟩

/-- The natural alignment of a value of `size` bytes. -/
def naturalAlignment : Nat → Nat
  | 0 | 1 => 1
  | 2 => 2
  | _ => 4

/-- Metrics whose alignment follows from the size. -/
def ofSize (size : Nat) : Metrics := make size (naturalAlignment size)

/-- Pointers of any depth, references and function pointers. -/
def pointer : Metrics := ⟨4, 4⟩

/-- Whatever cannot be sized: unknown names, enumerations, types that contain themselves. -/
def fallback : Metrics := ⟨4, 4⟩

/-- The metrics of a primitive type. -/
def ofPrimitive (p : Primitive) : Metrics := ofSize p.size

/-- The metrics of the primitive type of a name, if it is one. -/
def ofPrimitiveName (name : String) : Metrics :=
  match Primitive.ofName? name with
  | some p => ofPrimitive p
  | none => fallback

/-- `count` elements in a row. -/
def array (space : AddressSpace) (m : Metrics) (count : Nat) : Metrics :=
  make (space.clamp (m.size * count)) m.alignment

/-- The alignment that a declaration asks for, where zero asks for nothing. -/
def requested (alignment : Option UInt32) : Option Nat :=
  (alignment.map UInt32.toNat).filter (0 < ·)

/-- The metrics with the alignment that a declaration asks for in place of their own. -/
def withRequested (m : Metrics) (alignment : Option UInt32) : Metrics :=
  match requested alignment with
  | some a => make m.size a
  | none => m

/-- The metrics as text. -/
def display (m : Metrics) : String :=
  "size " ++ toString m.size ++ " align " ++ toString m.alignment

end Metrics

end DeclGraph
