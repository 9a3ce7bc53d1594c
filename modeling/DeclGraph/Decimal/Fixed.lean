import DeclGraph.Decimal.Binary64
import DeclGraph.Decimal.Power

/-!
# Decimals with fixed places

A fraction written with a given number of decimal places: the nearest such decimal, and of two
equally near ones that with the even last digit.
-/

namespace DeclGraph.Decimal

open Text

/-- The whole number nearest to `num / den`; a half goes to the even neighbour. -/
def roundHalfEven (num den : Nat) : Nat :=
  let q := num / den
  let r := num % den
  if 2 * r < den then q
  else if den < 2 * r then q + 1
  else if q % 2 = 0 then q else q + 1

/-- The fraction `num / den` with `places` decimal places. -/
def fixed (places num den : Nat) : String :=
  let scaled := roundHalfEven (num * tenTo places) den
  let whole := toString (scaled / tenTo places)
  if places = 0 then whole
  else
    let digits := decimal (scaled % tenTo places)
    whole ++ "." ++ String.ofList (List.replicate (places - digits.length) '0' ++ digits)

/-- The magnitude of a finite float with `places` decimal places. -/
def fixedFloat (places : Nat) (x : Float) : String :=
  let b := Binary64.ofFloat x
  fixed places b.num b.den

example : fixed 1 1 4 = "0.2" ∧ fixed 1 3 4 = "0.8" ∧ fixed 2 1234567 1000 = "1234.57" := by
  decide +kernel

end DeclGraph.Decimal
