import DeclGraph.Text.Numeral

/-!
# Binary64 numbers as exact fractions

A finite binary64 number is a whole mantissa times a power of two. Decimal texts are computed
from that exact value in natural numbers, so nothing depends on how a machine prints.
-/

namespace DeclGraph.Decimal

/-- The value `mantissa * 2 ^ exponent`, with a sign. -/
structure Binary64 where
  negative : Bool
  mantissa : Nat
  exponent : Int
  deriving DecidableEq, Repr

namespace Binary64

/-- Reads the fields of a finite number. Subnormal numbers have no leading one. -/
def ofBits (bits : UInt64) : Binary64 :=
  let n := bits.toNat
  let fraction : Nat := n % 1 <<< 52
  let biased : Nat := n >>> 52 % 1 <<< 11
  { negative := 1 <<< 63 ≤ n
    mantissa := if biased = 0 then fraction else 1 <<< 52 + fraction
    exponent := if biased = 0 then -1074 else (biased : Int) - 1075 }

/-- The exact value of a finite float. -/
def ofFloat (x : Float) : Binary64 := ofBits x.toBits

/-- The numerator of the magnitude. -/
def num (x : Binary64) : Nat := x.mantissa <<< x.exponent.toNat

/-- The denominator of the magnitude, a power of two. -/
def den (x : Binary64) : Nat := 1 <<< (-x.exponent).toNat

end Binary64

end DeclGraph.Decimal
