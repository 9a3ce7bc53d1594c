/-!
# Percentages
-/

namespace DeclGraph.Decimal

/-- The share of `part` in `whole`, in percent. Nothing is no share of nothing. -/
def percentage (part whole : Nat) : Float :=
  if whole = 0 then 0.0 else part.toUInt64.toFloat / whole.toUInt64.toFloat * 100.0

end DeclGraph.Decimal
