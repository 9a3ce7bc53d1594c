import DeclGraph.Layout.Pass
import DeclGraph.Resolve.Pass

/-!
# Summaries

What a run prints about each pass, line by line.
-/

namespace DeclGraph

/-- A number of things by the word for one and the word for several. -/
def counted (n : Nat) (singular plural : String) : String :=
  toString n ++ " " ++ if n = 1 then singular else plural

/-- A rule across the page. -/
def rule (c : Char) (width : Nat) : String := String.ofList (List.replicate width c)

/-- The summary of a resolution pass. -/
def ResolutionReport.summary (r : ResolutionReport) : List String :=
  let t := r.totals
  let linked := Decimal.percentage (t.resolved + t.primitive) t.total
  ["", "Resolution Summary", rule '-' 40,
    "  Resolved: " ++ toString t.resolved ++ " (" ++ Decimal.fixedFloat 1 linked ++ "% linked)",
    "  Primitive: " ++ toString t.primitive,
    "  Unresolved: " ++ toString t.unresolved,
    "  References created: " ++ toString r.referencesCreated] ++
  if r.samples.isEmpty then []
  else "" :: "Unresolved samples:" :: r.samples.map fun u =>
    "  " ++ u.typeString ++ " " ++ u.site.display ++ " in " ++ u.parent

/-- The summary of a layout pass, with its layouts if asked for. -/
def LayoutReport.summary (r : LayoutReport) (printsLayouts : Bool) : List String :=
  ["", "Layout Summary", rule '-' 40,
    "  Types laid out: " ++ toString r.typesLaidOut,
    "  Members placed: " ++ toString r.membersPlaced,
    "  Bitfield members: " ++ toString r.bitfieldMembers,
    "  Defaulted to 4 bytes: " ++ toString r.defaultedMembers,
    "  Ignored types: " ++ toString r.ignoredTypes,
    "  Padding bytes: " ++ toString r.paddingBytes] ++
  if printsLayouts then "" :: r.layouts.map Layout.display else []

end DeclGraph
