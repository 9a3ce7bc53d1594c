import DeclGraph.Decimal.Binary64
import DeclGraph.Decimal.Power

/-!
# Shortest decimals

The fewest decimal digits that read back as a given binary64 number. A decimal reads back if it
lies in the interval of reals that round to the number; the ends of the interval belong to it
when the mantissa is even. For each count of digits only the two decimals around the number can
lie nearest to it.
-/

namespace DeclGraph.Decimal

open Text

/-- The decimal `digits * 10 ^ exponent`. -/
structure Digits where
  digits : Nat
  exponent : Int
  deriving DecidableEq, Repr

/-- Compares `a * 2 ^ p` with `b * 10 ^ q`. -/
def compareScaled (a : Nat) (p : Int) (b : Nat) (q : Int) : Ordering :=
  compare ((a * tenTo (-q).toNat) <<< p.toNat) ((b * tenTo q.toNat) <<< (-p).toNat)

/-- Whether a decimal reads back as the number. In quarters of the last place the interval
reaches two to either side, and one below a power of two. -/
def readsBack (x : Binary64) (d : Digits) : Bool :=
  let narrow := x.mantissa = 1 <<< 52 ∧ -1074 < x.exponent
  let low := 4 * x.mantissa - (if narrow then 1 else 2)
  let high := 4 * x.mantissa + 2
  let even := x.mantissa % 2 = 0
  let below := compareScaled low (x.exponent - 2) d.digits d.exponent
  let above := compareScaled high (x.exponent - 2) d.digits d.exponent
  (below == .lt || (even && below == .eq)) && (above == .gt || (even && above == .eq))

/-- The decimals on the grid `10 ^ exponent` on either side of the number. -/
def neighbours (x : Binary64) (exponent : Int) : Digits × Digits :=
  let n := x.num * tenTo (-exponent).toNat / (x.den * tenTo exponent.toNat)
  (⟨n, exponent⟩, ⟨n + 1, exponent⟩)

/-- The nearer of the neighbours that read back, if one does. -/
def onGrid? (x : Binary64) (exponent : Int) : Option Digits :=
  let (lower, upper) := neighbours x exponent
  match readsBack x lower, readsBack x upper with
  | true, false => some lower
  | false, true => some upper
  | false, false => none
  | true, true =>
    -- The point halfway between the two decides; on it the lower one wins.
    if compareScaled (2 * x.mantissa) x.exponent (2 * lower.digits + 1) exponent == .gt
    then some upper else some lower

/-- Removes trailing zeros, at most `fuel` of them. -/
def stripZeros : Nat → Digits → Digits
  | 0, d => d
  | fuel + 1, d =>
    if d.digits ≠ 0 ∧ d.digits % 10 = 0 then stripZeros fuel ⟨d.digits / 10, d.exponent + 1⟩ else d

/-- The power of ten of the first digit of the number. -/
def leadingExponent (x : Binary64) : Int :=
  let whole := x.num / x.den
  if 0 < whole then (decimal whole).length - 1
  else
    let scaled := x.num * tenTo 400 / x.den
    (decimal scaled).length - 401

/-- The shortest decimal that reads back as the number; seventeen digits always do. -/
def shortest (x : Binary64) : Digits :=
  if x.mantissa = 0 then ⟨0, 0⟩
  else
    let first := leadingExponent x
    match (List.range 17).findSome? fun (k : Nat) => onGrid? x (first - k) with
    | some d => stripZeros 20 d
    | none => (neighbours x (first - 16)).1

/-- Positional from `10 ^ -4` up to `10 ^ 16`, else one digit before the point and an exponent
with its sign and at least two digits. A whole number keeps a zero after the point. -/
def render (negative : Bool) (d : Digits) : String :=
  let ds := decimal d.digits
  let exponent := d.exponent + ds.length - 1
  let magnitude : List Char :=
    if -5 < exponent ∧ exponent < 16 then
      if 0 ≤ d.exponent then ds ++ List.replicate d.exponent.toNat '0' ++ ['.', '0']
      else if 0 ≤ exponent then
        ds.take (exponent.toNat + 1) ++ ['.'] ++ ds.drop (exponent.toNat + 1)
      else ['0', '.'] ++ List.replicate (-exponent - 1).toNat '0' ++ ds
    else
      let fraction := ds.drop 1
      let power := decimal exponent.natAbs
      ds.take 1 ++ (if fraction.isEmpty then [] else '.' :: fraction) ++
        ['e', if exponent < 0 then '-' else '+'] ++
        List.replicate (2 - power.length) '0' ++ power
  String.ofList (if negative then '-' :: magnitude else magnitude)

/-- The shortest text of a finite float. -/
def shortestFloat (x : Float) : String :=
  let b := Binary64.ofFloat x
  render b.negative (shortest b)

end DeclGraph.Decimal
