/-!
# Bounded numbers

Sizes, counts and offsets are held in 32-bit words and saturate at the largest one.
-/

namespace DeclGraph

/-- The largest number that a 32-bit field holds. -/
def maxWord : Nat := 0xFFFFFFFF

/-- The word nearest to `n`. -/
def clampWord (n : Nat) : UInt32 := UInt32.ofNat (min n maxWord)

/-- The byte nearest to `n`. -/
def clampByte (n : Nat) : UInt8 := UInt8.ofNat (min n 255)

theorem toNat_clampWord (n : Nat) : (clampWord n).toNat = min n maxWord := by
  have : min n maxWord < 2 ^ 32 := by unfold maxWord; omega
  simp only [clampWord, UInt32.toNat_ofNat']
  exact Nat.mod_eq_of_lt this

end DeclGraph
