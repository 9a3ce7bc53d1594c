/-!
# Powers of ten

The places of a decimal numeral. Powers of two are written as shifts.
-/

namespace DeclGraph.Decimal

/-- The power `10 ^ n`. -/
def tenTo (n : Nat) : Nat := Nat.pow 10 n

end DeclGraph.Decimal
