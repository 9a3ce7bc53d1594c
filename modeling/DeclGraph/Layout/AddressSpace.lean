import DeclGraph.Word

/-!
# Address spaces

Sizes and offsets are natural numbers that saturate at the top of an address space. Layout is
computed in the space of 32-bit words; in the unbounded space the same computation is exact.

* `alignUp` rounds an offset up to a multiple of an alignment.
* `le_alignUp`: saturation apart, rounding up does not go below the offset.
-/

namespace DeclGraph

/-- The largest offset, if there is one. -/
structure AddressSpace where
  top : Option Nat
  deriving DecidableEq, Repr

namespace AddressSpace

/-- Offsets that fit a 32-bit word. -/
def words : AddressSpace := ⟨some maxWord⟩

/-- Offsets without a bound. -/
def unbounded : AddressSpace := ⟨none⟩

/-- The offset nearest to `n` that the space has. -/
def clamp (space : AddressSpace) (n : Nat) : Nat :=
  match space.top with
  | some top => min n top
  | none => n

/-- The least multiple of `alignment` that is not below `offset`. Alignments zero and one leave
every offset as it is. -/
def alignUp (space : AddressSpace) (offset alignment : Nat) : Nat :=
  if alignment ≤ 1 then offset
  else if offset % alignment = 0 then offset
  else space.clamp (offset + (alignment - offset % alignment))

@[simp] theorem clamp_words (n : Nat) : words.clamp n = min n maxWord := rfl

@[simp] theorem clamp_unbounded (n : Nat) : unbounded.clamp n = n := rfl

theorem le_alignUp (offset alignment : Nat) : offset ≤ unbounded.alignUp offset alignment := by
  unfold alignUp
  split
  · omega
  · split
    · omega
    · rw [clamp_unbounded]; omega

end AddressSpace

end DeclGraph
